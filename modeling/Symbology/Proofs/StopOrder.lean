import Symbology.Proofs.StopFunction.Compiling
import Symbology.Proofs.StopFunction.Trees

set_option autoImplicit false

/-! # Which stops ascend

The inputs of a function that blends its outputs ascend strictly, or else the function is refused.
Of a function of intervals only the inputs behind the first are known to ascend: below the second
input the output is the first one, whatever its input is, so the first input is never looked at.
All inputs of such a function ascend exactly when its first two do. In a function of both the zoom
level and a property this goes for the zoom levels and for the values within each group
(`ascends_iff_first_two`). -/

namespace Symbology.StopFunction

/-! ## Inputs that belong together -/

/-- The number under a key of the input of a stop. -/
def memberNumber? (key : String) (stop : Json × Json) : Option Float :=
  (stop.1.get? key).bind Json.number?

/-- The inputs of two stops are written with the same zoom level. -/
def sameWrittenZoom (a b : Json × Json) : Bool :=
  a.1.get? "zoom" == b.1.get? "zoom"

/-- The lists of inputs that should ascend: the inputs of all stops, or else the zoom levels of the
groups and, for each group, the values in it. What is no number is `none`. -/
def inputLists (stops : List (Json × Json)) : List (List (Option Float)) :=
  if isComposite stops then
    let groups := stops.splitBy sameWrittenZoom
    groups.map (fun group => group.head?.bind (memberNumber? "zoom")) ::
      groups.map (fun group => group.map (memberNumber? "value"))
  else [stops.map (·.1.number?)]

/-- All inputs are numbers, and they ascend strictly. -/
def Ascends (inputs : List (Option Float)) : Prop :=
  ∃ numbers : List Float, inputs = numbers.map some ∧ numbers.Pairwise (· < ·)

theorem ascends_map_some_iff {numbers : List Float} :
    Ascends (numbers.map some) ↔ numbers.Pairwise (· < ·) := by
  constructor
  · rintro ⟨numbers', h, hascending⟩
    rwa [List.map_injective_iff.mpr (Option.some_injective Float) h]
  · exact fun h => ⟨numbers, rfl, h⟩

/-- If the numbers behind the first ascend, the first two decide. -/
theorem pairwise_iff_first_two {numbers : List Float} (h : numbers.tail.Pairwise (· < ·)) :
    numbers.Pairwise (· < ·) ↔ (numbers.take 2).Pairwise (· < ·) := by
  rcases numbers with _ | ⟨first, _ | ⟨second, rest⟩⟩
  · simp
  · simp
  · rw [List.tail_cons, ← List.isChain_iff_pairwise] at h
    rw [← List.isChain_iff_pairwise, ← List.isChain_iff_pairwise]
    simp [h]

/-! ## What a curve asks for -/

section Curve

variable {type : ValueType} {expr : Expr} {curve : Curve} {input : Json}
  {stops : List (Json.Number × Json)}

/-- The labels behind the first ascend, and all do unless the curve is one of intervals. -/
theorem labels_ascending (h : (curve.expression input stops).Spells type expr) :
    (stops.map (·.1.toFloat)).tail.Pairwise (· < ·) ∧
      (curve ≠ .interval → (stops.map (·.1.toFloat)).Pairwise (· < ·)) := by
  cases curve with
  | interval =>
    cases stops with
    | nil => exact absurd h not_spells_interval_nil
    | cons stop rest =>
      obtain ⟨_, _, _, _, _, _, hascending, _⟩ := spells_interval.mp h
      exact ⟨List.isChain_iff_pairwise.mp hascending, fun hcurve => absurd rfl hcurve⟩
  | exponential base =>
    obtain ⟨_, _, _, _, _, _, hascending, _⟩ := spells_exponential.mp h
    rw [List.isChain_iff_pairwise] at hascending
    exact ⟨hascending.tail, fun _ => hascending⟩

/-- **The labels of a curve ascend**, except that nothing is asked of the first of intervals. -/
theorem ascends_labels_iff (h : (curve.expression input stops).Spells type expr) :
    Ascends (stops.map (fun stop => some stop.1.toFloat)).tail ∧
      (Ascends (stops.map (fun stop => some stop.1.toFloat)) ↔
        curve ≠ .interval ∨ Ascends ((stops.map (fun stop => some stop.1.toFloat)).take 2)) := by
  obtain ⟨htail, hall⟩ := labels_ascending h
  have hlabels : stops.map (fun stop => some stop.1.toFloat) =
      (stops.map (·.1.toFloat)).map some := by
    rw [List.map_map]
    rfl
  rw [hlabels, ← List.map_tail, ← List.map_take, ascends_map_some_iff, ascends_map_some_iff,
    ascends_map_some_iff]
  refine ⟨htail, fun h => Or.inr ((pairwise_iff_first_two htail).mp h), ?_⟩
  rintro (hcurve | htwo)
  · exact hall hcurve
  · exact (pairwise_iff_first_two htail).mpr htwo

/-- Each output of a curve is spelled. -/
theorem exists_spells_output (h : (curve.expression input stops).Spells type expr) :
    ∀ stop ∈ stops, ∃ output, stop.2.Spells type output := by
  obtain ⟨_, _, _, _, _, houtputs⟩ := curveOver_of_spells h
  intro stop hstop
  obtain ⟨output, _, houtput⟩ := houtputs.flip.exists_of_mem_right hstop
  exact ⟨output, houtput⟩

end Curve

/-! ## Groups -/

/-- The zoom level and the values of stops as they are written are those of the group that the
stops are read as. -/
def WrittenGroup (curve : Curve) (stops : List (Json × Json)) (group : Group) : Prop :=
  stops.head?.bind (memberNumber? "zoom") = some group.zoom.toFloat ∧
    ∃ numeric : List NumericStop, group.body = .ordered curve numeric ∧
      stops.map (memberNumber? "value") = numeric.map (fun stop => some stop.1.toFloat)

theorem IsCompositeStop.sameWrittenZoom_eq {a b : Json × Json} {a' b' : CompositeStop}
    (ha : IsCompositeStop a a') (hb : IsCompositeStop b b') :
    sameWrittenZoom a b = sameZoom a' b' := by
  unfold sameWrittenZoom
  rw [ha.zoom, hb.zoom]
  rfl

/-- **The groups are the longest runs of stops that are written with one zoom level.** -/
theorem writtenGroups {settings : Settings} (htype : settings.type ≠ .categorical)
    {written : List (Json × Json)} {stops : List CompositeStop} {groups' : List Group}
    (hstops : List.Forall₂ IsCompositeStop written stops)
    (hgroups : groups settings (runs stops) = .ok groups') :
    List.Forall₂ (WrittenGroup settings.curve) (written.splitBy sameWrittenZoom) groups' := by
  have hparts : List.Forall₂ (List.Forall₂ IsCompositeStop) (written.splitBy sameWrittenZoom)
      (stops.splitBy sameZoom) :=
    hstops.splitBy (fun ha hb => ha.sameWrittenZoom_eq hb)
  refine (hparts.comp ((runs_eq_splitBy stops).comp (groups_eq_ok_iff.mp hgroups))).imp ?_
  rintro part group ⟨read, hread, run, ⟨first, rest, rfl, rfl⟩, hzoom, hbody⟩
  obtain ⟨numeric, hnumeric, hordered⟩ := (body_eq_ok_iff htype).mp hbody
  refine ⟨?_, numeric, hordered, ?_⟩
  · cases hread with
    | cons hfirst _ => simp [memberNumber?, hfirst.zoom, hzoom, Json.number?]
  · -- the values of the part are the inputs of the stops of the body
    have hvalues : part.map (memberNumber? "value") =
        ((first :: rest).map (·.2)).map (·.1.number?) := by
      rw [List.map_map, ← List.forall₂_eq_eq_eq, List.forall₂_map_left_iff,
        List.forall₂_map_right_iff]
      exact hread.imp (fun a b hab => by simp [memberNumber?, hab.value])
    rw [hvalues, show (first :: rest).map (·.2) = writtenNumbers numeric from hnumeric,
      writtenNumbers, List.map_map]
    rfl

/-! ## Functions -/

theorem Settings.curve_ne_interval_iff {settings : Settings} :
    settings.curve ≠ .interval ↔ settings.type = .exponential := by
  by_cases hexponential : settings.type = .exponential <;> simp [Settings.curve, hexponential]

theorem Settings.outerCurve_ne_interval_iff {settings : Settings} {spec : PropertySpec}
    (htype : settings.type = .exponential ∨ settings.type = .interval)
    (hblended : settings.type = .exponential → spec.isInterpolated = true) :
    settings.outerCurve spec ≠ .interval ↔ settings.type = .exponential := by
  rcases htype with hexponential | hinterval
  · simp [Settings.outerCurve, hexponential, hblended hexponential]
  · simp [Settings.outerCurve, hinterval]

/-- All lists of inputs of a function with groups do what the labels of a curve do. -/
theorem inputLists_ascend {settings : Settings} {curve : Curve} {name : String}
    {written : List (Json × Json)} {groups' : List Group} {type : ValueType} {expr : Expr}
    (hcomposite : isComposite written = true)
    (hwritten : List.Forall₂ (WrittenGroup settings.curve) (written.splitBy sameWrittenZoom)
      groups')
    (hspells : (overBoth name curve groups').expression.Spells type expr)
    (hcurve : curve ≠ .interval ↔ settings.curve ≠ .interval) :
    ∀ inputs ∈ inputLists written, Ascends inputs.tail ∧
      (Ascends inputs ↔ settings.curve ≠ .interval ∨ Ascends (inputs.take 2)) := by
  simp only [inputLists, hcomposite, if_true]
  refine List.forall_mem_cons.mpr ⟨?_, List.forall_mem_map.mpr (fun part hpart => ?_)⟩
  · -- the zoom levels are the labels of the curve over the zoom level
    have hzooms : (written.splitBy sameWrittenZoom).map
          (fun part => part.head?.bind (memberNumber? "zoom")) =
        (groups'.map (fun group => (group.zoom, group.body.expression name))).map
          (fun stop => some stop.1.toFloat) := by
      rw [List.map_map, ← List.forall₂_eq_eq_eq, List.forall₂_map_left_iff,
        List.forall₂_map_right_iff]
      exact hwritten.imp (fun part group hgroup => hgroup.1)
    rw [hzooms, ← hcurve]
    exact ascends_labels_iff hspells
  · -- the values of a part are the labels of the curve of its group
    obtain ⟨group, hgroup, _, numeric, hbody, hvalues⟩ := hwritten.flip.exists_of_mem_right hpart
    obtain ⟨output, houtput⟩ := exists_spells_output hspells
      (group.zoom, group.body.expression name) (List.mem_map_of_mem hgroup)
    rw [hbody] at houtput
    have hlabels := ascends_labels_iff houtput
    rw [quotedOutputs, List.map_map] at hlabels
    rw [hvalues]
    exact hlabels

/-- **What is known of the order of the inputs of a function that compiles.** The inputs behind the
first ascend. The first one is below the others if outputs are blended, and else exactly when it is
below the second. -/
theorem ascends_iff_first_two {spec : PropertySpec} {options : CompileOptions}
    {compiled : PropertyExpression} {members : List (String × Json)} {function : StopFunction}
    {type : FunctionType} {written : List (Json × Json)}
    (hread : read (.object members) spec = .ok function)
    (hcompile : PropertyExpression.compile function.expression spec options = .ok compiled)
    (htype : functionType spec (members.lookup "type") = .ok type)
    (hordered : type = .exponential ∨ type = .interval)
    (hstops : members.lookup "stops" = some (writtenStops written)) :
    ∀ inputs ∈ inputLists written, Ascends inputs.tail ∧
      (Ascends inputs ↔ type = .exponential ∨ Ascends (inputs.take 2)) := by
  have hnumeric : type ≠ .identity ∧ type ≠ .categorical := by
    rcases hordered with rfl | rfl <;> simp
  cases hcomposite : isComposite written with
  | false =>
    obtain ⟨name, settings, numeric, _, rfl, rfl, _, hspells⟩ :=
      exists_curve_of_compile hread hcompile htype hnumeric hstops hcomposite
    have hlabels := ascends_labels_iff hspells
    rw [quotedOutputs, List.map_map, Settings.curve_ne_interval_iff] at hlabels
    simp only [inputLists, hcomposite, Bool.false_eq_true, if_false]
    rw [List.forall_mem_singleton, writtenNumbers, List.map_map]
    exact hlabels
  | true =>
    obtain ⟨name, base', _, _, _, hblended, hfunction⟩ :=
      (read_eq_ok_iff_of_stops htype hnumeric.1 hstops).mp hread
    obtain ⟨property, stops, groups', rfl, hwritten, hgroups, rfl⟩ :=
      (ofStops_eq_ok_iff_of_composite hcomposite).mp hfunction
    have hparts := writtenGroups hnumeric.2 hwritten hgroups
    have hascend := inputLists_ascend hcomposite hparts
      (PropertyExpression.spells_of_compile hcompile)
      ((Settings.outerCurve_ne_interval_iff hordered hblended).trans
        Settings.curve_ne_interval_iff.symm)
    rwa [Settings.curve_ne_interval_iff] at hascend

/-- The stops of a number that grows with the zoom level ascend. -/
theorem ascends_iff_first_two_number :
    ∃ function compiled, read (.object [("stops", writtenStops
        [(.number (.integer 5), .number (.integer 1)),
          (.number (.integer 10), .number (.integer 2))])]) { kind := .number } = .ok function ∧
      PropertyExpression.compile function.expression { kind := .number } {} = .ok compiled ∧
      Ascends [some 5, some 10] := by
  obtain ⟨compiled, hcompile⟩ := Except.exists_of_isOk (x := PropertyExpression.compile
    (overZoom (.exponential none) [(.integer 5, .number (.integer 1)),
      (.integer 10, .number (.integer 2))]).expression { kind := .number } {}) rfl
  have hread : read (.object [("stops", writtenStops
      [(.number (.integer 5), .number (.integer 1)),
        (.number (.integer 10), .number (.integer 2))])]) { kind := .number } =
      .ok (overZoom (.exponential none) [(.integer 5, .number (.integer 1)),
        (.integer 10, .number (.integer 2))]) := rfl
  refine ⟨_, compiled, hread, hcompile, ?_⟩
  obtain ⟨_, hiff⟩ := ascends_iff_first_two hread hcompile rfl (Or.inl rfl) rfl
    [some 5, some 10] List.mem_cons_self
  exact hiff.mpr (Or.inl rfl)

/-- So not every function that compiles has stops that ascend: an interval function may begin with
its highest stop. -/
theorem not_ascends :
    ¬∀ (spec : PropertySpec) (options : CompileOptions) (compiled : PropertyExpression)
      (members : List (String × Json)) (function : StopFunction) (type : FunctionType)
      (written : List (Json × Json)), read (.object members) spec = .ok function →
        PropertyExpression.compile function.expression spec options = .ok compiled →
        functionType spec (members.lookup "type") = .ok type →
        type = .exponential ∨ type = .interval →
        members.lookup "stops" = some (writtenStops written) →
        ∀ inputs ∈ inputLists written, Ascends inputs := by
  intro h
  obtain ⟨compiled, hcompile⟩ := Except.exists_of_isOk (x := PropertyExpression.compile
    (overZoom .interval [(.integer 10, .string "a"), (.integer 5, .string "b")]).expression
    { kind := .string } {}) rfl
  have hascends : Ascends ([10, 5].map some) :=
    h { kind := .string } {} compiled
      [("stops", writtenStops [(.number (.integer 10), .string "a"),
        (.number (.integer 5), .string "b")])] _ .interval _ rfl hcompile rfl (Or.inr rfl) rfl _
      List.mem_cons_self
  have hlt : (10 : Float) < 5 := by simpa using ascends_map_some_iff.mp hascends
  exact absurd hlt (by decide)

end Symbology.StopFunction
