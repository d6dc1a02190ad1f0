import Symbology.Proofs.Except
import Symbology.Proofs.Related
import Symbology.StopFunction.Reader

set_option autoImplicit false

/-! # What reading a stop function asks for

The members of a function are looked at one after another, and each of them has to be as it should.
`ofMembers_eq_ok_iff` lists all that is asked for. The groups of a function of both the zoom level
and a property are the longest runs of stops with one zoom level (`runs_eq_splitBy`). -/

namespace Symbology.StopFunction

variable {spec : PropertySpec} {members : List (String × Json)} {function : StopFunction}

/-! ## Members -/

theorem functionType_eq_identity {written : Option Json}
    (h : functionType spec written = .ok .identity) : written = some (.string "identity") := by
  unfold functionType at h
  split at h
  · split at h <;> exact absurd h (by simp)
  next json =>
    split at h
    next type htype =>
      obtain rfl := Except.ok.inj h
      unfold FunctionType.ofJson? at htype
      split at htype <;> simp_all
    next => contradiction

/-- The member `property` has to be a string, if there is one. -/
theorem propertyName_eq_ok_iff {written : Option Json} {name : Option String} :
    propertyName written = .ok name ↔ written = name.map Json.string := by
  unfold propertyName
  split
  · cases name <;> simp
  next property => cases name <;> simp
  next json hstring =>
    cases name with
    | none => simp [Read.fail]
    | some property => simpa [Read.fail] using hstring property

/-- A list of stops as it is written. -/
def writtenStops (stops : List (Json × Json)) : Json :=
  .array (stops.map (fun stop => .array [stop.1, stop.2]))

theorem pairs_eq_ok_iff {index : Nat} {items : List Json} {found : List (Json × Json)} :
    pairs index items = .ok found ↔ items = found.map (fun stop => .array [stop.1, stop.2]) := by
  fun_induction pairs index items generalizing found with
  | case1 => cases found <;> simp
  | case2 index input output rest ih =>
    rw [Except.map_eq_ok_iff]
    constructor
    · rintro ⟨others, hothers, rfl⟩
      rw [List.map_cons, ← ih.mp hothers]
    · intro h
      cases found with
      | nil => simp at h
      | cons stop others =>
        obtain ⟨hstop, hothers⟩ := List.cons.inj h
        obtain ⟨input', output'⟩ := stop
        obtain ⟨rfl, rfl⟩ : input = input' ∧ output = output' := by simpa using hstop
        exact ⟨others, ih.mpr hothers, rfl⟩
  | case3 index item rest hpair =>
    refine ⟨fun h => by simp [Read.fail] at h, fun h => ?_⟩
    cases found with
    | nil => simp at h
    | cons stop others => exact absurd (List.cons.inj h).1 (hpair stop.1 stop.2)

/-- The member `stops` has to be an array of pairs that is not empty. -/
theorem stops_eq_ok_iff {written : Option Json} {found : List (Json × Json)} :
    stops written = .ok found ↔ found ≠ [] ∧ written = some (writtenStops found) := by
  unfold stops writtenStops
  split
  · simp [Read.fail]
  · cases found <;> simp [Read.fail]
  next items hitems =>
    rw [pairs_eq_ok_iff]
    constructor
    · rintro rfl
      refine ⟨?_, rfl⟩
      rintro rfl
      exact hitems rfl
    · rintro ⟨_, h⟩
      simpa using h
  next json hempty harray =>
    refine ⟨fun h => by simp [Read.fail] at h, ?_⟩
    rintro ⟨_, h⟩
    exact absurd (Option.some.inj h) (harray _)

theorem writtenStops_injective : Function.Injective writtenStops := by
  intro left right h
  have hpair : Function.Injective (fun stop : Json × Json => Json.array [stop.1, stop.2]) := by
    rintro ⟨a, b⟩ ⟨c, d⟩ h
    simpa using h
  exact List.map_injective_iff.mpr hpair (Json.array.inj h)

theorem numericInput_eq_ok_iff {index : Nat} {json : Json} {n : Json.Number} :
    numericInput index json = .ok n ↔ json = .number n := by
  cases json <;> simp [numericInput, Read.fail]

/-- A list of stops whose inputs are numbers, as it is written. -/
def writtenNumbers (stops : List NumericStop) : List (Json × Json) :=
  stops.map (fun stop => (.number stop.1, stop.2))

theorem numericStops_eq_ok_iff {index : Nat} {written : List (Json × Json)}
    {found : List NumericStop} :
    numericStops index written = .ok found ↔ written = writtenNumbers found := by
  induction written generalizing index found with
  | nil => cases found <;> simp [numericStops, writtenNumbers]
  | cons pair rest ih =>
    obtain ⟨input, output⟩ := pair
    simp only [numericStops, Except.seq_eq_ok_iff, Except.pure_eq_ok_iff, numericInput_eq_ok_iff,
      ih]
    constructor
    · rintro ⟨n, rfl, others, rfl, rfl⟩
      rfl
    · intro h
      cases found with
      | nil => simp [writtenNumbers] at h
      | cons stop others =>
        obtain ⟨hstop, hothers⟩ := List.cons.inj h
        obtain ⟨rfl, rfl⟩ := Prod.mk.inj hstop
        exact ⟨stop.1, rfl, others, hothers, rfl⟩

/-- A function of a property that is not categorical has stops whose inputs are numbers. -/
theorem body_eq_ok_iff {settings : Settings} (htype : settings.type ≠ .categorical)
    {stops : List (Json × Json)} {body : Body} :
    settings.body stops = .ok body ↔
      ∃ found, stops = writtenNumbers found ∧ body = .ordered settings.curve found := by
  rw [Settings.body, if_neg htype, Except.map_eq_ok_iff]
  exact exists_congr (fun found => and_congr numericStops_eq_ok_iff eq_comm)

/-- What stops are read as: a function of both with inputs that are objects, and else a function of
the property, or of the zoom level if there is no property. -/
theorem ofStops_eq_ok_iff {settings : Settings} {found : List (Json × Json)}
    {name : Option String} :
    ofStops spec settings found name = .ok function ↔
      (∃ property stops groups', name = some property ∧ isComposite found = true ∧
        compositeStops 0 found = .ok stops ∧ groups settings (runs stops) = .ok groups' ∧
        overBoth property (settings.outerCurve spec) groups' = function) ∨
      (∃ property body, name = some property ∧ isComposite found = false ∧
        settings.body found = .ok body ∧ overProperty property body = function) ∨
      (∃ numeric, name = none ∧ isComposite found = false ∧ settings.type ≠ .categorical ∧
        numericStops 0 found = .ok numeric ∧ overZoom settings.curve numeric = function) := by
  cases hcomposite : isComposite found with
  | true =>
    cases name with
    | none => simp [ofStops, hcomposite, Read.fail]
    | some property =>
      simp only [ofStops, hcomposite, if_true, Except.seq_eq_ok_iff, Except.pure_eq_ok_iff]
      simp
  | false =>
    cases name with
    | none =>
      by_cases hcategorical : settings.type = .categorical
      · simp [ofStops, hcomposite, hcategorical, Read.fail]
      · simp [ofStops, hcomposite, hcategorical]
    | some property => simp [ofStops, hcomposite]

/-- **Reading an object succeeds exactly when all its members are as they should be.** -/
theorem ofMembers_eq_ok_iff :
    ofMembers spec members = .ok function ↔
      ∃ type name, functionType spec (members.lookup "type") = .ok type ∧
        propertyName (members.lookup "property") = .ok name ∧
        (type = .exponential → spec.isInterpolated = true) ∧
        ((type = .identity ∧ ∃ property, name = some property ∧
            function = .identity property spec.kind) ∨
          (type ≠ .identity ∧ ∃ found base', stops (members.lookup "stops") = .ok found ∧
            base (members.lookup "base") = .ok base' ∧
            ofStops spec ⟨type, base', ((members.lookup "default").or spec.default).getD .null⟩
              found name = .ok function)) := by
  simp only [ofMembers, Except.seq_eq_ok_iff]
  refine exists_congr (fun type => ?_)
  constructor
  · rintro ⟨htype, name, hname, h⟩
    refine ⟨name, htype, hname, ?_⟩
    split at h
    · simp [Read.fail] at h
    next hblended =>
      have hinterpolated : type = .exponential → spec.isInterpolated = true := by
        intro hexponential
        by_contra hnot
        exact hblended ⟨hexponential, hnot⟩
      refine ⟨hinterpolated, ?_⟩
      split at h
      next hidentity =>
        split at h
        next property =>
          obtain rfl := Except.pure_eq_ok_iff.mp h
          exact Or.inl ⟨hidentity, property, rfl, rfl⟩
        next => simp [Read.fail] at h
      next hidentity =>
        simp only [Except.seq_eq_ok_iff] at h
        obtain ⟨found, hfound, base', hbase, h⟩ := h
        exact Or.inr ⟨hidentity, found, base', hfound, hbase, h⟩
  · rintro ⟨name, htype, hname, hinterpolated, h⟩
    refine ⟨htype, name, hname, ?_⟩
    rw [if_neg (fun hboth => hboth.2 (hinterpolated hboth.1))]
    rcases h with ⟨hidentity, property, rfl, rfl⟩ | ⟨hidentity, found, base', hfound, hbase, h⟩
    · rw [if_pos hidentity]
      rfl
    · rw [if_neg hidentity]
      simp only [Except.seq_eq_ok_iff]
      exact ⟨found, hfound, base', hbase, h⟩

/-- **A function with stops that are written as a list of pairs** is read by its type. -/
theorem read_eq_ok_iff_of_stops {type : FunctionType} {written : List (Json × Json)}
    (htype : functionType spec (members.lookup "type") = .ok type) (hidentity : type ≠ .identity)
    (hstops : members.lookup "stops" = some (writtenStops written)) :
    read (.object members) spec = .ok function ↔
      ∃ name base', propertyName (members.lookup "property") = .ok name ∧
        base (members.lookup "base") = .ok base' ∧ written ≠ [] ∧
        (type = .exponential → spec.isInterpolated = true) ∧
        ofStops spec ⟨type, base', ((members.lookup "default").or spec.default).getD .null⟩
          written name = .ok function := by
  rw [read, ofMembers_eq_ok_iff]
  constructor
  · rintro ⟨type', name, htype', hname, hblended, h⟩
    obtain rfl := Except.ok.inj (htype.symm.trans htype')
    obtain ⟨_, found, base', hfound, hbase, h⟩ := h.resolve_left (fun h => hidentity h.1)
    -- the stops that are read are the stops that are written
    obtain ⟨hne, hwritten⟩ := stops_eq_ok_iff.mp hfound
    obtain rfl := writtenStops_injective (Option.some.inj (hstops.symm.trans hwritten))
    exact ⟨name, base', hname, hbase, hne, hblended, h⟩
  · rintro ⟨name, base', hname, hbase, hne, hblended, h⟩
    exact ⟨type, name, htype, hname, hblended,
      Or.inr ⟨hidentity, written, base', stops_eq_ok_iff.mpr ⟨hne, hstops⟩, hbase, h⟩⟩

/-- **A categorical function with one list of stops** is a choice with these stops. It falls back to
its default or that of the property. -/
theorem read_eq_ok_iff_of_categorical {name : String} {written : List (Json × Json)}
    (htype : members.lookup "type" = some (.string "categorical"))
    (hname : members.lookup "property" = some (.string name))
    (hstops : members.lookup "stops" = some (writtenStops written))
    (hplain : isComposite written = false) :
    read (.object members) spec = .ok function ↔
      written ≠ [] ∧ (∃ base', base (members.lookup "base") = .ok base') ∧
        function = .overProperty name
          (.categorical written (((members.lookup "default").or spec.default).getD .null)) := by
  have hcategorical : functionType spec (members.lookup "type") = .ok .categorical := by
    rw [htype]
    rfl
  have hproperty : propertyName (members.lookup "property") = .ok (some name) := by
    rw [hname]
    rfl
  rw [read_eq_ok_iff_of_stops hcategorical (by simp) hstops]
  constructor
  · rintro ⟨_, base', hread, hbase, hne, _, hfunction⟩
    obtain rfl := Except.ok.inj (hproperty.symm.trans hread)
    rw [ofStops, hplain] at hfunction
    exact ⟨hne, ⟨base', hbase⟩, (Except.ok.inj hfunction).symm⟩
  · rintro ⟨hne, ⟨base', hbase⟩, rfl⟩
    refine ⟨some name, base', hproperty, hbase, hne, by simp, ?_⟩
    rw [ofStops, hplain]
    rfl

/-! ## Groups -/

/-- A stop of a function of both, as it is written. -/
structure IsCompositeStop (written : Json × Json) (stop : CompositeStop) : Prop where
  zoom : written.1.get? "zoom" = some (.number stop.1)
  value : written.1.get? "value" = some stop.2.1
  output : written.2 = stop.2.2

theorem compositeStops_eq_ok_iff {index : Nat} {written : List (Json × Json)}
    {found : List CompositeStop} :
    compositeStops index written = .ok found ↔ List.Forall₂ IsCompositeStop written found := by
  induction written generalizing index found with
  | nil => cases found <;> simp [compositeStops]
  | cons pair rest ih =>
    obtain ⟨input, output⟩ := pair
    rw [compositeStops]
    constructor
    · intro h
      split at h
      next zoom value hzoom hvalue =>
        simp only [Except.seq_eq_ok_iff, Except.pure_eq_ok_iff, numericInput_eq_ok_iff, ih] at h
        obtain ⟨n, rfl, others, hothers, rfl⟩ := h
        exact .cons ⟨hzoom, hvalue, rfl⟩ hothers
      next => simp [Read.fail] at h
    · intro h
      cases h with
      | @cons _ stop _ others hstop hothers =>
        obtain ⟨hzoom, hvalue, rfl⟩ := hstop
        simp only [hzoom, hvalue, Except.seq_eq_ok_iff, Except.pure_eq_ok_iff,
          numericInput_eq_ok_iff, ih]
        exact ⟨stop.1, rfl, others, hothers, rfl⟩

theorem groups_eq_ok_iff {settings : Settings} {runs : List (Json.Number × List (Json × Json))}
    {found : List Group} :
    groups settings runs = .ok found ↔
      List.Forall₂ (fun run group => group.zoom = run.1 ∧ settings.body run.2 = .ok group.body)
        runs found := by
  induction runs generalizing found with
  | nil => cases found <;> simp [groups]
  | cons run rest ih =>
    simp only [groups, Except.seq_eq_ok_iff, Except.pure_eq_ok_iff, ih]
    constructor
    · rintro ⟨body, hbody, others, hothers, rfl⟩
      exact .cons ⟨rfl, hbody⟩ hothers
    · intro h
      cases h with
      | @cons _ group _ others hgroup hothers =>
        obtain ⟨hzoom, hbody⟩ := hgroup
        refine ⟨group.body, hbody, others, hothers, ?_⟩
        rw [← hzoom]

/-- Stops with inputs that are objects are read as a function of both, if there is a property. -/
theorem ofStops_eq_ok_iff_of_composite {settings : Settings} {found : List (Json × Json)}
    {name : Option String} (hcomposite : isComposite found = true) :
    ofStops spec settings found name = .ok function ↔
      ∃ property stops groups', name = some property ∧
        List.Forall₂ IsCompositeStop found stops ∧ groups settings (runs stops) = .ok groups' ∧
        function = .overBoth property (settings.outerCurve spec) groups' := by
  simp only [ofStops_eq_ok_iff, hcomposite, Bool.true_eq_false, true_and, false_and, and_false,
    exists_false, or_false, compositeStops_eq_ok_iff, eq_comm (a := function)]

/-- Two stops have the same zoom level. -/
def sameZoom (a b : CompositeStop) : Bool :=
  a.1 == b.1

/-- The stops of a run, and the zoom level of its first stop. -/
def IsRun (part : List CompositeStop) (run : Json.Number × List (Json × Json)) : Prop :=
  ∃ first rest, part = first :: rest ∧ run = (first.1, part.map (·.2))

/-- **The runs are the longest parts of the list with one zoom level.** -/
theorem runs_eq_splitBy (stops : List CompositeStop) :
    List.Forall₂ IsRun (stops.splitBy sameZoom) (runs stops) := by
  induction stops with
  | nil => exact .nil
  | cons stop rest ih =>
    obtain ⟨zoom, input⟩ := stop
    cases rest with
    | nil => exact .cons ⟨_, [], rfl, rfl⟩ .nil
    | cons next rest =>
      rw [runs]
      generalize hruns : runs (next :: rest) = found at ih ⊢
      generalize hsplit : (next :: rest).splitBy sameZoom = parts at ih
      cases ih with
      | nil => exact absurd hsplit (by simp)
      | @cons part run parts others hpart hparts =>
        obtain ⟨first, more, rfl, rfl⟩ := hpart
        -- the first run begins with the stop after this one
        obtain rfl : next = first := by
          have hflatten := List.flatten_splitBy sameZoom (next :: rest)
          rw [hsplit] at hflatten
          exact (List.cons.inj hflatten).1.symm
        by_cases hequal : (zoom == next.1) = true
        · have hzoom : sameZoom (zoom, input) next = true := hequal
          rw [List.splitBy_cons_of_rel hzoom hsplit]
          dsimp only
          rw [if_pos hequal]
          exact .cons ⟨_, _, rfl, rfl⟩ hparts
        · have hzoom : ¬sameZoom (zoom, input) next = true := hequal
          rw [List.splitBy_cons_of_not_rel hzoom, hsplit]
          dsimp only
          rw [if_neg hequal]
          exact .cons ⟨_, [], rfl, rfl⟩ (.cons ⟨_, _, rfl, rfl⟩ hparts)

/-- An identity function is of the kind of the style property. -/
theorem kind_of_identity {json : Json} {name : String} {kind : PropertyKind}
    (h : read json spec = .ok (.identity name kind)) : kind = spec.kind := by
  unfold read at h
  split at h
  next members =>
    obtain ⟨type, name', _, _, _, hfunction⟩ := ofMembers_eq_ok_iff.mp h
    rcases hfunction with ⟨_, property, _, heq⟩ | ⟨_, found, base', _, _, hstops⟩
    · exact (StopFunction.identity.inj heq).2
    · -- stops are never read as an identity function
      simp [ofStops_eq_ok_iff] at hstops
  next => simp [Read.fail] at h

end Symbology.StopFunction
