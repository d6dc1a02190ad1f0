import Symbology.Value.Basic

set_option autoImplicit false

/-! # What an expression is evaluated for

An expression may ask for the zoom level of the map and for the feature that is drawn. Either may
be missing. -/

namespace Symbology

/-- A feature of the map. -/
structure Feature where
  id : Option Value := none
  geometryType : Option String := none
  /-- Its properties, a keyed list. -/
  properties : List (String × Value) := []

namespace Feature

/-- The feature with the properties that an object of JSON holds; other values hold none. -/
def ofProperties (json : Json) : Feature :=
  { properties := Value.ofJsonMembers (json.object?.getD []) }

end Feature

/-- The zoom level and the feature that an expression is evaluated for. -/
structure Context where
  zoom : Option Float := none
  feature : Option Feature := none

namespace Context

/-- The properties of the feature; there are none without a feature. -/
def properties (context : Context) : List (String × Value) :=
  (context.feature.map Feature.properties).getD []

end Context

end Symbology
