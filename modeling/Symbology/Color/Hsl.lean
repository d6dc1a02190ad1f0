import Symbology.Color.Basic

set_option autoImplicit false

/-! # Colors by hue, saturation and lightness

The hue is an angle in degrees. The circle of hues is cut into six sectors; in each sector one
channel is strongest, one is weakest and one lies between them. -/

namespace Symbology.Color

/-- The number is not zero, but too near to zero to have all 24 binary digits. -/
def isSubnormal (x : Float32) : Bool :=
  match x.toModel.unpack with
  | .finite _ mantissa _ _ => mantissa < 0x800000
  | _ => false

/-- The angle between 0 and 360 that `degrees` stands for. -/
def normalHue (degrees : Float32) : Float32 :=
  let turned := degrees - Number.floor (degrees / 360) * 360
  -- rounding may have left the whole turn
  if isSubnormal turned || 360 ≤ turned then 0 else turned

/-- The sector of a hue given in sixths of the circle, from 0 to 4. The last sector, and what is
not an angle at all, has none. -/
def sector? (h : Float32) : Option (Fin 5) :=
  if 0 ≤ h ∧ h < 1 then some 0
  else if 1 ≤ h ∧ h < 2 then some 1
  else if 2 ≤ h ∧ h < 3 then some 2
  else if 3 ≤ h ∧ h < 4 then some 3
  else if 4 ≤ h ∧ h < 5 then some 4
  else none

/-- Red, green and blue before lightness is added: `chroma` is the strongest channel, `second` the
one between, and zero the weakest. -/
def sectorChannels (chroma second : Float32) : Option (Fin 5) → Float32 × Float32 × Float32
  | some 0 => (chroma, second, 0)
  | some 1 => (second, chroma, 0)
  | some 2 => (0, chroma, second)
  | some 3 => (0, second, chroma)
  | some 4 => (second, 0, chroma)
  | none => (chroma, 0, second)

/-- The color with a hue in degrees, and a saturation and lightness between 0 and 1. -/
def ofHsl (degrees saturation lightness alpha : Float32) : Color :=
  let chroma := (1 - (lightness * 2 - 1).abs) * saturation
  let h := normalHue degrees / 60
  let across := h - Number.floor (h * 0.5) * 2
  let second := chroma * (1 - (across - 1).abs)
  let base := lightness - chroma * 0.5
  let (red, green, blue) := sectorChannels chroma second (sector? h)
  ⟨Number.clamp 0 1 (red + base), Number.clamp 0 1 (green + base), Number.clamp 0 1 (blue + base),
    alpha⟩

end Symbology.Color
