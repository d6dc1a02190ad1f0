import Symbology.Proofs.StopFunction.Errors
import Symbology.Proofs.StopOrder

set_option autoImplicit false

/-! # Which stop an error points to

An error of a stop points to the stop by its position, and to its input by a zero behind it. A stop
that is pointed to is no pair. An input that is pointed to is at fault, unless the fault is a value
of a later group: such a value is found when its group is read, which counts from the first stop of
the group, and the position is not counted on (`stop_of_error`). Then an input that is as it should
be is pointed to. -/

namespace Symbology.StopFunction

/-! ## Inputs that are pointed to -/

/-- The stop at the position has an input with the fault. -/
def Blames (stops : List (Json × Json)) (i : Nat) (fault : Fault) : Prop :=
  ∃ stop, stops[i]? = some stop ∧ Offends (isComposite stops) stop.1 fault

/-- The value in the input of the stop is a number. -/
def HasNumber (stop : Json × Json) : Prop :=
  (memberNumber? "value" stop).isSome = true

/-- What is at fault can only be a value of a later group: all stops have a zoom level and a value,
and the values of the first group are numbers. -/
structure Misplaced (stops : List (Json × Json)) : Prop where
  composite : isComposite stops = true
  complete : ∀ stop ∈ stops, ∃ read, IsCompositeStop stop read
  first_group : ∀ group ∈ (stops.splitBy sameWrittenZoom).head?, ∀ stop ∈ group, HasNumber stop

variable {e : ReadError} {settings : Settings} {written : List (Json × Json)}

theorem not_misplaced_of_not_composite (h : isComposite written = false) : ¬Misplaced written :=
  fun hmisplaced => absurd (h.symm.trans hmisplaced.composite) (by decide)

/-- A stop with a zoom level and a number as its value is at no fault. -/
theorem not_offends {stop : Json × Json} {read : CompositeStop} (hread : IsCompositeStop stop read)
    (hvalue : HasNumber stop) (fault : Fault) : ¬Offends true stop.1 fault := by
  obtain ⟨value, hmember, hnumber⟩ := Option.bind_eq_some_iff.mp (Option.eq_some_of_isSome hvalue)
  intro h
  cases h with
  | incomplete lacks =>
    rcases lacks with h | h
    · exact absurd (h.symm.trans hread.zoom) (by simp)
    · exact absurd (h.symm.trans hread.value) (by simp)
  | zoom member no_number =>
    obtain rfl := Option.some.inj (member.symm.trans hread.zoom)
    contradiction
  | value member no_number =>
    obtain rfl := Option.some.inj (member.symm.trans hmember)
    rw [no_number] at hnumber
    contradiction

/-! ## Groups as they are written -/

/-- The values of the stops of a group are the inputs of the run that is read. -/
def IsWrittenRun (part : List (Json × Json)) (run : Json.Number × List (Json × Json)) : Prop :=
  List.Forall₂ (fun stop pair => stop.1.get? "value" = some pair.1) part run.2

theorem writtenRuns {stops : List CompositeStop} (h : List.Forall₂ IsCompositeStop written stops) :
    List.Forall₂ IsWrittenRun (written.splitBy sameWrittenZoom) (runs stops) := by
  have hparts : List.Forall₂ (List.Forall₂ IsCompositeStop) (written.splitBy sameWrittenZoom)
      (stops.splitBy sameZoom) :=
    h.splitBy (fun ha hb => ha.sameWrittenZoom_eq hb)
  refine (hparts.comp (runs_eq_splitBy stops)).imp ?_
  rintro part run ⟨read, hread, first, rest, rfl, rfl⟩
  rw [IsWrittenRun, List.forall₂_map_right_iff]
  exact hread.imp (fun stop pair hstop => hstop.value)

theorem hasNumber_iff {stop pair : Json × Json} (h : stop.1.get? "value" = some pair.1) :
    HasNumber stop ↔ IsNumberStop pair := by
  obtain ⟨input, output⟩ := pair
  rw [HasNumber, memberNumber?, h, Option.bind_some]
  cases input <;> simp [Json.number?, IsNumberStop]

theorem exists_body_iff (htype : settings.type ≠ .categorical) {pairs : List (Json × Json)} :
    (∃ body, settings.body pairs = .ok body) ↔ ∀ pair ∈ pairs, IsNumberStop pair := by
  simp only [body_eq_ok_iff htype]
  constructor
  · rintro ⟨_, found, rfl, rfl⟩
    exact List.forall_mem_map.mpr (fun stop _ => ⟨stop.1, rfl⟩)
  · intro h
    have hfound : ∀ pair ∈ pairs, ∃ stop : NumericStop, pair = (.number stop.1, stop.2) := by
      intro pair hpair
      obtain ⟨n, hn⟩ := h pair hpair
      exact ⟨(n, pair.2), Prod.ext hn rfl⟩
    obtain ⟨found, hrelated⟩ := List.exists_forall₂ hfound
    refine ⟨_, found, ?_, rfl⟩
    rw [writtenNumbers, ← List.forall₂_eq_eq_eq, List.forall₂_map_right_iff]
    exact hrelated

/-- A group is read if the values in it are numbers. -/
theorem forall_hasNumber_iff (htype : settings.type ≠ .categorical) {part : List (Json × Json)}
    {run : Json.Number × List (Json × Json)} (h : IsWrittenRun part run) :
    (∀ stop ∈ part, HasNumber stop) ↔ ∃ body, settings.body run.2 = .ok body := by
  rw [exists_body_iff htype]
  constructor
  · intro hpart pair hpair
    obtain ⟨stop, hstop, hvalue⟩ := h.exists_of_mem_right hpair
    exact (hasNumber_iff hvalue).mp (hpart stop hstop)
  · intro hrun stop hstop
    obtain ⟨pair, hpair, hvalue⟩ := h.flip.exists_of_mem_right hstop
    exact (hasNumber_iff hvalue).mpr (hrun pair hpair)

/-- The number of stops before a group. -/
def stopsBefore (stops : List (Json × Json)) (group : Nat) : Nat :=
  ((stops.splitBy sameWrittenZoom).take group).flatten.length

/-- The first group begins with the first stop, and the others begin later. -/
theorem stopsBefore_eq_zero_iff {k : Nat} {part : List (Json × Json)}
    (h : (written.splitBy sameWrittenZoom)[k]? = some part) : stopsBefore written k = 0 ↔ k = 0 := by
  refine ⟨fun hzero => ?_, fun hk => by simp [hk, stopsBefore]⟩
  by_contra hk
  have hempty := List.eq_nil_of_length_eq_zero hzero
  cases hparts : written.splitBy sameWrittenZoom with
  | nil => simp [hparts] at h
  | cons first rest =>
    obtain ⟨k, rfl⟩ := Nat.exists_eq_succ_of_ne_zero hk
    rw [hparts, List.take_succ_cons, List.flatten_cons, List.append_eq_nil_iff] at hempty
    have hfirst : first ∈ written.splitBy sameWrittenZoom := by simp [hparts]
    exact List.ne_nil_of_mem_splitBy hfirst hempty.1

/-- **An error of a group is about the first value that is no number**, and it counts the stops from
the first stop of the group. -/
theorem value_of_error {stops : List CompositeStop}
    (hstops : List.Forall₂ IsCompositeStop written stops)
    (h : groups settings (runs stops) = .error e) :
    ∃ k n stop, (k = 0 ↔ ¬∀ group ∈ (written.splitBy sameWrittenZoom).head?,
        ∀ stop ∈ group, HasNumber stop) ∧ (stopsBefore written k = 0 ↔ k = 0) ∧
      FirstFailure HasNumber written (stopsBefore written k + n) stop ∧
      e.part = .input n ∧ Offends true stop.1 e.fault := by
  have hruns := writtenRuns hstops
  obtain ⟨k, run, hrun, herror⟩ := groups_eq_error h
  have htype : settings.type ≠ .categorical := by
    intro hcategorical
    rw [Settings.body, if_pos hcategorical] at herror
    contradiction
  obtain ⟨n, pair, hpair, rfl⟩ := body_eq_error herror
  obtain ⟨part, hpart, hwritten⟩ :=
    hrun.of_forall₂ hruns (fun part run => forall_hasNumber_iff htype)
  obtain ⟨stop, hstop, hvalue⟩ := hpair.of_forall₂ hwritten (fun stop pair => hasNumber_iff)
  have hfirst := hpart.flatten hstop
  rw [List.flatten_splitBy] at hfirst
  exact ⟨k, n, stop, hpart.eq_zero_iff, stopsBefore_eq_zero_iff hpart.item_eq, hfirst, rfl,
    .value hvalue (number?_eq_none hpair.failure)⟩

/-! ## Functions -/

/-- What is known of an error that points to the input of the stop at `i`: the input is at fault, or
the position is one in a later group. -/
structure PointsToInput (stops : List (Json × Json)) (i : Nat) (fault : Fault) : Prop where
  blames_iff : Blames stops i fault ↔ ¬Misplaced stops
  later_group : Misplaced stops → ∃ k > 0, Blames stops (stopsBefore stops k + i) fault

theorem PointsToInput.of_blames {i : Nat} {fault : Fault} (hblames : Blames written i fault)
    (h : ¬Misplaced written) : PointsToInput written i fault :=
  ⟨iff_of_true hblames h, fun hmisplaced => absurd hmisplaced h⟩

/-- An error of a list over both the zoom level and a property. -/
theorem pointsToInput_of_groups {stops : List CompositeStop} (hcomposite : isComposite written = true)
    (hstops : List.Forall₂ IsCompositeStop written stops)
    (h : groups settings (runs stops) = .error e) :
    ∃ i, e.part = .input i ∧ PointsToInput written i e.fault := by
  obtain ⟨k, i, stop, hfirst, hbefore, hvalue, hpart, hoffends⟩ := value_of_error hstops h
  have hcomplete : ∀ stop ∈ written, ∃ read, IsCompositeStop stop read := by
    intro stop hstop
    obtain ⟨read, _, hread⟩ := hstops.flip.exists_of_mem_right hstop
    exact ⟨read, hread⟩
  refine ⟨i, hpart, ?_⟩
  by_cases hk : k = 0
  · refine .of_blames ⟨stop, ?_, by rwa [hcomposite]⟩
      (fun hmisplaced => hfirst.mp hk hmisplaced.first_group)
    simpa [hbefore.mpr hk] using hvalue.item_eq
  · have hmisplaced : Misplaced written :=
      ⟨hcomposite, hcomplete, not_not.mp (mt hfirst.mpr hk)⟩
    refine ⟨iff_of_false ?_ (not_not.mpr hmisplaced), fun _ => ⟨k, Nat.pos_of_ne_zero hk, stop,
      hvalue.item_eq, by rwa [hcomposite]⟩⟩
    -- the stop at `i` stands before the first value that is no number
    rintro ⟨other, hother, hfault⟩
    have hlt : i < stopsBefore written k + i := by
      have := mt hbefore.mp hk
      omega
    have hmem : other ∈ written.take (stopsBefore written k + i) :=
      List.mem_of_getElem? (by rwa [List.getElem?_take_of_lt hlt])
    obtain ⟨read, hread⟩ := hcomplete other (List.mem_of_getElem? hother)
    rw [hcomposite] at hfault
    exact not_offends hread (hvalue.before other hmem) e.fault hfault

/-- **Where an error of stops that are pairs points to.** -/
theorem pointsToInput_of_ofStops {spec : PropertySpec} {name : Option String}
    (h : ofStops spec settings written name = .error e) :
    e.part.isNamed = true ∨ ∃ i, e.part = .input i ∧ PointsToInput written i e.fault := by
  rcases ofStops_eq_error h with
    hnamed | ⟨hplain, hnumeric⟩ | ⟨hcomposite, hread | ⟨stops, hstops, hgroups⟩⟩
  · exact Or.inl hnamed
  · obtain ⟨i, stop, hfirst, rfl⟩ := numericStops_eq_error hnumeric
    refine Or.inr ⟨i, by rw [Nat.zero_add], .of_blames ⟨stop, hfirst.item_eq, ?_⟩
      (not_misplaced_of_not_composite hplain)⟩
    rw [hplain]
    exact .input (number?_eq_none hfirst.failure)
  · obtain ⟨i, stop, hfirst, hpart, hoffends⟩ := compositeStops_eq_error hread
    refine Or.inr ⟨i, by rw [hpart, Nat.zero_add], .of_blames ⟨stop, hfirst.item_eq, ?_⟩ ?_⟩
    · rwa [hcomposite]
    · exact fun hmisplaced =>
        hfirst.failure (hmisplaced.complete stop (List.mem_of_getElem? hfirst.item_eq))
  · exact Or.inr (pointsToInput_of_groups hcomposite (compositeStops_eq_ok_iff.mp hstops) hgroups)

/-- **What an error of reading points to.** A stop that is pointed to is no pair. An input that is
pointed to is at fault exactly when the error is not misplaced, and else the stop at fault has this
position in a later group. -/
theorem stop_of_error {json : Json} {spec : PropertySpec} (h : read json spec = .error e) (i : Nat) :
    (e.part.text = "$.stops[" ++ toString i ++ "]" →
      ∃ items item, json.get? "stops" = some (.array items) ∧ items[i]? = some item ∧
        ¬IsPair item) ∧
    (e.part.text = "$.stops[" ++ toString i ++ "][0]" →
      ∃ stops, json.get? "stops" = some (writtenStops stops) ∧ PointsToInput stops i e.fault) := by
  cases origin_of_error h with
  | named hnamed =>
    exact ⟨fun hkey => absurd hkey (Part.text_ne_of_isNamed hnamed i _),
      fun hkey => absurd hkey (Part.text_ne_of_isNamed hnamed i _)⟩
  | @item items n item hwritten hfirst herror =>
    subst herror
    refine ⟨fun hkey => ?_, fun hkey => absurd hkey Part.text_stop_ne⟩
    obtain rfl := Part.text_stop_eq_iff.mp hkey
    exact ⟨items, item, hwritten, hfirst.item_eq, hfirst.failure⟩
  | @stops found settings name hwritten herror =>
    rcases pointsToInput_of_ofStops herror with hnamed | ⟨n, hpart, hpoints⟩
    · exact ⟨fun hkey => absurd hkey (Part.text_ne_of_isNamed hnamed i _),
        fun hkey => absurd hkey (Part.text_ne_of_isNamed hnamed i _)⟩
    · rw [hpart]
      refine ⟨fun hkey => absurd hkey Part.text_input_ne, fun hkey => ?_⟩
      obtain rfl := Part.text_input_eq_iff.mp hkey
      exact ⟨found, hwritten, hpoints⟩

/-- A stop whose input is a string, and a stop that is no pair. -/
theorem stop_of_error_string :
    PointsToInput [(.string "x", .number (.integer 1))] 0 (.inputKind (.string "x")) ∧
      ∃ items item, (Json.object [("stops", .array [.array [.null, .null], .null])]).get? "stops" =
        some (.array items) ∧ items[1]? = some item ∧ ¬IsPair item := by
  constructor
  · have hread : read (.object [("stops", writtenStops [(.string "x", .number (.integer 1))])])
        { kind := .number } = .error ⟨.input 0, .inputKind (.string "x")⟩ := rfl
    obtain ⟨stops, hstops, hpoints⟩ := (stop_of_error hread 0).2 rfl
    obtain rfl := writtenStops_injective (Option.some.inj hstops)
    exact hpoints
  · have hread : read (.object [("stops", .array [.array [.null, .null], .null])])
        { kind := .number } = .error ⟨.stop 1, .notPair⟩ := rfl
    exact (stop_of_error hread 1).1 rfl

/-- So not every input that is pointed to is at fault: the value of the second stop is no number,
and the error points to the first stop. -/
theorem not_blames :
    ¬∀ (json : Json) (spec : PropertySpec) (e : ReadError) (i : Nat), read json spec = .error e →
      (e.part.text = "$.stops[" ++ toString i ++ "]" →
        ∃ items item, json.get? "stops" = some (.array items) ∧ items[i]? = some item ∧
          ¬IsPair item) ∧
      (e.part.text = "$.stops[" ++ toString i ++ "][0]" →
        ∃ stops, json.get? "stops" = some (writtenStops stops) ∧ Blames stops i e.fault) := by
  intro h
  let input (zoom : Int) (value : Json) : Json :=
    .object [("value", value), ("zoom", .number (.integer zoom))]
  let first : Json × Json := (input 0 (.number (.integer 0)), .number (.integer 1))
  let second : Json × Json := (input 5 (.string "x"), .number (.integer 2))
  have hread : read (.object [("property", .string "p"), ("stops", writtenStops [first, second])])
      { kind := .number } = .error ⟨.input 0, .inputKind (.string "x")⟩ := rfl
  obtain ⟨stops, hstops, stop, hstop, hoffends⟩ := (h _ _ _ 0 hread).2 rfl
  obtain rfl := writtenStops_injective (Option.some.inj hstops)
  obtain rfl : first = stop := Option.some.inj hstop
  have hfirst : IsCompositeStop first
      (.integer 0, .number (.integer 0), .number (.integer 1)) := ⟨rfl, rfl, rfl⟩
  exact not_offends hfirst rfl _ hoffends

end Symbology.StopFunction
