import Symbology.Proofs.StopFunction.Reading
import Symbology.Proofs.Value.Equality
import Symbology.StopFunction.Expression

set_option autoImplicit false

/-! # The stops of a function of both, told by its expression

The expression of a function of both the zoom level and a property is a curve whose outputs are
curves. Read from left to right (`layers?`), it tells one layer of stops after another, each with
its zoom level. If outputs are blended, these are the stops as they were written, in their order:
the grouping drops none, repeats none and takes none to another zoom level
(`composite_tells_stops`). -/

namespace Symbology.StopFunction

/-! ## Reading curves -/

/-- Labels and outputs that stand in turn. -/
def inTurn? : List Json → Option (List (Json × Json))
  | [] => some []
  | [_] => none
  | label :: output :: rest => (inTurn? rest).map ((label, output) :: ·)

/-- The stops of an interpolation over an input. -/
def stopsOver? (input : Json) : Json → Option (List (Json × Json))
  | .array (.string "interpolate" :: _ :: found :: rest) =>
    if found == input then inTurn? rest else none
  | _ => none

/-- An output without its quotation. -/
def unquoted : Json → Json
  | .array [.string "literal", .array items] => .array items
  | .array [.string "literal", .object members] => .object members
  | scalar => scalar

/-- The stops of one zoom level: labels of the property, and outputs. -/
structure Layer where
  zoom : Json
  stops : List (Json × Json)

/-- The layer that a stop of the curve over the zoom level holds. -/
def layer? (name : String) (stop : Json × Json) : Option Layer :=
  (stopsOver? (call "number" [propertyOf name]) stop.2).map (fun stops =>
    ⟨stop.1, stops.map (fun stop => (stop.1, unquoted stop.2))⟩)

/-- The layers of a curve over the zoom level, from left to right. -/
def layers? (name : String) (expression : Json) : Option (List Layer) :=
  (stopsOver? zoomLevel expression).bind (List.mapM (layer? name))

/-- A stop as it is told: its zoom level, its label of the property and its output. -/
abbrev ToldStop := Json × Json × Json

/-- The stops of a layer, each with the zoom level. -/
def Layer.told (layer : Layer) : List ToldStop :=
  layer.stops.map (fun stop => (layer.zoom, stop))

/-- What is told of a stop is what is written, with a zoom level that equals the written one. -/
structure Tells (told : ToldStop) (written : Json × Json) : Prop where
  zoom : ∃ zoom, written.1.get? "zoom" = some zoom ∧ (told.1 == zoom) = true
  label : written.1.get? "value" = some told.2.1
  output : written.2 = told.2.2

/-! ## What is written is read back -/

theorem inTurn?_alternate (stops : List (Json × Json)) :
    inTurn? (alternate stops) = some stops := by
  induction stops with
  | nil => rfl
  | cons stop rest ih => rw [alternate, inTurn?, ih, Option.map_some]

theorem unquoted_quoted (output : Json) : unquoted (quoted output) = output := by
  unfold quoted
  split
  · rfl
  · rfl
  next scalar hitems _ =>
    -- what is not quoted is no array, so it is not taken for a quotation
    unfold unquoted
    split
    · exact absurd rfl (hitems _)
    · exact absurd rfl (hitems _)
    · rfl

theorem stopsOver?_expression (input : Json) (base : Option Json.Number)
    (stops : List NumericStop) :
    stopsOver? input ((Curve.exponential base).expression input stops) =
      some (writtenNumbers stops) := by
  have hread : stopsOver? input ((Curve.exponential base).expression input stops) =
      if input == input then inTurn? (alternate (writtenNumbers stops)) else none :=
    rfl
  rw [hread, if_pos BEq.rfl, inTurn?_alternate]

variable {settings : Settings} {name : String}

/-- A function that blends its outputs blends them between zoom levels too. -/
theorem outerCurve_of_exponential (hsettings : settings.type = .exponential) {spec : PropertySpec}
    (hspec : spec.isInterpolated = true) : settings.outerCurve spec = .exponential settings.base :=
  if_pos ⟨hspec, by simp [hsettings]⟩

/-- **A group is told as the run that it was read from.** -/
theorem layer?_body (hsettings : settings.type = .exponential) {stops : List (Json × Json)}
    {body : Body} (hbody : settings.body stops = .ok body) (zoom : Json) :
    layer? name (zoom, body.expression name) = some ⟨zoom, stops⟩ := by
  have hcurve : settings.curve = .exponential settings.base := if_pos hsettings
  obtain ⟨numeric, rfl, rfl⟩ := (body_eq_ok_iff (by simp [hsettings])).mp hbody
  rw [layer?, hcurve, Body.expression, stopsOver?_expression, Option.map_some]
  congr 2
  simp [writtenNumbers, quotedOutputs, Function.comp_def, unquoted_quoted]

/-- The layer that a run is told as. -/
def Layer.ofRun (run : Json.Number × List (Json × Json)) : Layer :=
  ⟨.number run.1, run.2⟩

/-- **The layers of an expression are the runs of the function.** -/
theorem layers?_expression (hsettings : settings.type = .exponential)
    {found : List (Json.Number × List (Json × Json))} {groups' : List Group}
    (hgroups : groups settings found = .ok groups') (base : Option Json.Number) :
    layers? name (overBoth name (.exponential base) groups').expression =
      some (found.map Layer.ofRun) := by
  rw [layers?, expression, stopsOver?_expression, Option.bind_some, List.mapM_eq_some_iff,
    writtenNumbers, List.map_map, List.forall₂_map_left_iff, List.forall₂_map_right_iff]
  refine (groups_eq_ok_iff.mp hgroups).flip.imp (fun group run hgroup => ?_)
  obtain ⟨hzoom, hbody⟩ := hgroup
  rw [Layer.ofRun, ← hzoom]
  exact layer?_body hsettings hbody _

/-! ## Runs -/

/-- The stops of a run, each with the zoom level of the run. -/
def toldRun (run : Json.Number × List (Json × Json)) : List CompositeStop :=
  run.2.map (fun stop => (run.1, stop))

/-- A stop of a function of both, up to the spelling of its zoom level. -/
def Alike (told stop : CompositeStop) : Prop :=
  (told.1 == stop.1) = true ∧ told.2 = stop.2

/-- The stops of a run are told as they are: all of them have the zoom level of the first. -/
theorem alike_of_isRun {stops part : List CompositeStop} {run : Json.Number × List (Json × Json)}
    (hpart : part ∈ stops.splitBy sameZoom) (hrun : IsRun part run) :
    List.Forall₂ Alike (toldRun run) part := by
  obtain ⟨first, rest, rfl, rfl⟩ := hrun
  have htrans : IsTrans CompositeStop (fun a b => sameZoom a b = true) :=
    ⟨fun _ _ _ hab hbc => BEq.trans hab hbc⟩
  have hsame : ∀ stop ∈ first :: rest, sameZoom first stop = true := by
    intro stop hstop
    rcases List.mem_cons.mp hstop with rfl | hrest
    · exact BEq.rfl
    · exact (List.isChain_of_mem_splitBy hpart).rel_cons hrest
  rw [toldRun, List.map_map, List.forall₂_map_left_iff, List.forall₂_same]
  exact fun stop hstop => ⟨hsame stop hstop, rfl⟩

/-- **The runs hold all stops, in their order.** -/
theorem alike_runs (stops : List CompositeStop) :
    List.Forall₂ Alike ((runs stops).flatMap toldRun) stops := by
  have hruns : List.Forall₂ (List.Forall₂ Alike) ((runs stops).map toldRun)
      (stops.splitBy sameZoom) := by
    rw [List.forall₂_map_left_iff]
    exact (runs_eq_splitBy stops).flip.imp_of_mem (fun _ _ _ hpart => alike_of_isRun hpart)
  have hflatten := List.rel_flatten hruns
  rwa [List.flatten_splitBy, ← List.flatMap_def] at hflatten

theorem ne_nil_of_mem_runs {stops : List CompositeStop} {run : Json.Number × List (Json × Json)}
    (h : run ∈ runs stops) : run.2 ≠ [] := by
  obtain ⟨part, _, first, rest, rfl, rfl⟩ := (runs_eq_splitBy stops).exists_of_mem_right h
  simp

/-- **No two runs in a row have the same zoom level.** -/
theorem isChain_runs (stops : List CompositeStop) :
    (runs stops).IsChain (fun run next => (run.1 == next.1) = false) := by
  induction stops with
  | nil => exact .nil
  | cons stop rest ih =>
    obtain ⟨zoom, stop⟩ := stop
    rw [runs]
    split
    next next stops others hruns =>
      rw [hruns, List.isChain_cons] at ih
      obtain ⟨hfirst, hothers⟩ := ih
      split
      next hequal =>
        -- the run that grows keeps its zoom level, up to equality
        refine List.isChain_cons.mpr ⟨fun run hrun => ?_, hothers⟩
        rw [BEq.congr_left hequal]
        exact hfirst run hrun
      next hdifferent =>
        refine List.isChain_cons_cons.mpr ⟨Bool.not_eq_true _ ▸ hdifferent, ?_⟩
        exact List.isChain_cons.mpr ⟨hfirst, hothers⟩
    next => exact .singleton _

/-! ## Functions of both -/

variable {spec : PropertySpec} {members : List (String × Json)} {function : StopFunction}
  {written : List (Json × Json)}

/-- What is told of a stop that is read. -/
theorem tells_of_alike {told stop : CompositeStop} {input : Json × Json} (halike : Alike told stop)
    (hstop : IsCompositeStop input stop) : Tells (.number told.1, told.2) input := by
  obtain ⟨hzoom, hrest⟩ := halike
  refine ⟨⟨_, hstop.zoom, hzoom⟩, ?_, ?_⟩
  · rw [hrest]
    exact hstop.value
  · rw [hrest]
    exact hstop.output

theorem told_ofRun (run : Json.Number × List (Json × Json)) :
    (Layer.ofRun run).told = (toldRun run).map (fun stop => (.number stop.1, stop.2)) := by
  rw [Layer.told, toldRun, List.map_map]
  rfl

/-- The layers of the runs tell all stops. -/
theorem tells_runs {stops : List CompositeStop}
    (hwritten : List.Forall₂ IsCompositeStop written stops) :
    List.Forall₂ Tells (((runs stops).map Layer.ofRun).flatMap Layer.told) written := by
  have htold : ((runs stops).map Layer.ofRun).flatMap Layer.told =
      ((runs stops).flatMap toldRun).map (fun stop => (.number stop.1, stop.2)) := by
    rw [List.flatMap_map, List.map_flatMap]
    exact List.flatMap_congr (fun run _ => told_ofRun run)
  rw [htold, List.forall₂_map_left_iff]
  refine ((alike_runs stops).comp hwritten.flip).imp (fun told input hstop => ?_)
  obtain ⟨stop, halike, hread⟩ := hstop
  exact tells_of_alike halike hread

/-- **The expression of a function of both tells the stops as they were written**, if the function
blends its outputs. From left to right it holds them in their order, with zoom levels that are equal
to the written ones. No layer is empty, and no two layers in a row have the same zoom level. -/
theorem composite_tells_stops (hread : read (.object members) spec = .ok function)
    (htype : functionType spec (members.lookup "type") = .ok .exponential)
    (hstops : members.lookup "stops" = some (writtenStops written))
    (hcomposite : isComposite written = true) :
    ∃ name layers, members.lookup "property" = some (.string name) ∧
      layers? name function.expression = some layers ∧
      List.Forall₂ Tells (layers.flatMap Layer.told) written ∧
      (∀ layer ∈ layers, layer.stops ≠ []) ∧
      layers.IsChain (fun layer next => (layer.zoom == next.zoom) = false) := by
  obtain ⟨_, base', hname, _, _, hblended, hfunction⟩ :=
    (read_eq_ok_iff_of_stops htype (by simp) hstops).mp hread
  obtain ⟨name, stops, groups', rfl, hwritten, hgroups, rfl⟩ :=
    (ofStops_eq_ok_iff_of_composite hcomposite).mp hfunction
  refine ⟨name, _, propertyName_eq_ok_iff.mp hname, ?_, tells_runs hwritten, ?_, ?_⟩
  · rw [outerCurve_of_exponential rfl (hblended rfl)]
    exact layers?_expression rfl hgroups base'
  · rw [List.forall_mem_map]
    exact fun run hrun => ne_nil_of_mem_runs hrun
  · rw [List.isChain_map]
    exact isChain_runs stops

/-- The stops of a line offset, which is a pair of numbers. The first two zoom levels are equal,
though they are not spelled alike, and the last stop comes back to them. -/
def offsetStops : List (Json × Json) :=
  let stop (zoom : Json.Number) (lanes offset : Int) : Json × Json :=
    (.object [("value", .number (.integer lanes)), ("zoom", .number zoom)],
      .array [.number (.integer 0), .number (.integer offset)])
  [stop (.float 0 rfl) 1 2, stop (.float (-0) rfl) 4 8, stop (.integer 5) 1 4,
    stop (.float 0 rfl) 2 1]

/-- The expression of such a line offset tells its four stops. -/
theorem composite_tells_stops_offset :
    ∃ function, read (.object [("property", .string "lanes"), ("stops", writtenStops offsetStops)])
        (.arrayOf .number none) = .ok function ∧
      functionType (.arrayOf .number none) none = .ok .exponential ∧
      isComposite offsetStops = true ∧
      ∃ layers, layers? "lanes" function.expression = some layers ∧
        List.Forall₂ Tells (layers.flatMap Layer.told) offsetStops := by
  obtain ⟨function, hread⟩ := Except.exists_of_isOk (x := read (.object [("property",
    .string "lanes"), ("stops", writtenStops offsetStops)]) (.arrayOf .number none)) rfl
  refine ⟨function, hread, rfl, rfl, ?_⟩
  obtain ⟨name, layers, hname, hlayers, htells, _⟩ := composite_tells_stops hread rfl rfl rfl
  obtain rfl : "lanes" = name := by simpa [List.lookup] using hname
  exact ⟨layers, hlayers, htells⟩

end Symbology.StopFunction
