import Symbology.Proofs.Typing.Rules

set_option autoImplicit false

/-! # Operators with stops find derivations

The labels of stops are numbers of JSON values, which are comparable, and each is refused unless it
is above the one before; so they ascend. -/

namespace Symbology

theorem Json.exists_number {json : Json} {x : Float} (h : json.number? = some x) :
    ∃ n : Json.Number, n.toFloat = x := by
  unfold Json.number? at h
  split at h
  next n => exact ⟨n, Option.some.inj h⟩
  next => contradiction

/-- The number of a JSON value is comparable. -/
theorem Json.isNaN_of_number {json : Json} {x : Float} (h : json.number? = some x) :
    x.isNaN = false := by
  obtain ⟨n, rfl⟩ := exists_number h
  exact n.toFloat_isNaN

namespace Typing

/-! ## Labels -/

/-- A label is comparable and above the one before it. -/
theorem stopLabel_above {operator : StopOperator} {previous : Option Float} {o : Operand}
    {label : Float} (h : stopLabel operator previous o = .ok label)
    (hprevious : ∀ p, previous = some p → p.isNaN = false) :
    label.isNaN = false ∧ ∀ p, previous = some p → p < label := by
  unfold stopLabel at h
  split at h
  · contradiction
  next x hx =>
    have hnan := Json.isNaN_of_number hx
    split at h
    · contradiction
    next hnot =>
      obtain rfl := Except.ok.inj h
      refine ⟨hnan, ?_⟩
      rintro p rfl
      refine Number.lt_of_not_le (hprevious p rfl) hnan (fun hle => hnot ?_)
      simpa using hle

/-- A label is the number of a JSON value. -/
theorem exists_number_of_stopLabel {operator : StopOperator} {previous : Option Float} {o : Operand}
    {label : Float} (h : stopLabel operator previous o = .ok label) :
    ∃ n : Json.Number, n.toFloat = label := by
  unfold stopLabel at h
  split at h
  · contradiction
  next x hx =>
    split at h
    · contradiction
    · obtain rfl := Except.ok.inj h
      exact Json.exists_number hx

/-- So are the labels of all stops. -/
theorem exists_numbers_of_stops {operator : StopOperator} :
    ∀ {previous : Option Float} {expected : Option ValueType} {args : List Operand}
      {found : List (Float × Expr)} {shared : Option ValueType},
      stops operator previous expected args = .ok (found, shared) →
        ∃ labels : List Json.Number, found.map (·.1) = labels.map (·.toFloat)
  | _, _, [], _, _, h => by
    obtain ⟨rfl, _⟩ := Prod.mk.inj (Except.ok.inj h)
    exact ⟨[], rfl⟩
  | _, _, [_], _, _, h => by contradiction
  | _, _, label :: _ :: _, _, _, h => by
    simp only [stops, Except.seq_eq_ok_iff, Except.pure_eq_ok_iff] at h
    obtain ⟨x, hx, output, _, ⟨others, shared'⟩, hrest, h⟩ := h
    obtain ⟨rfl, _⟩ := Prod.mk.inj h
    obtain ⟨labels, hlabels⟩ := exists_numbers_of_stops hrest
    obtain ⟨n, rfl⟩ := exists_number_of_stopLabel hx
    exact ⟨n :: labels, congrArg (n.toFloat :: ·) hlabels⟩

/-- One more label in front, below the first of the others. -/
theorem AscendingLabels.cons {label : Float} {rest : List Float} (hlabel : label.isNaN = false)
    (hrest : AscendingLabels rest) (hbelow : ∀ other ∈ rest, label < other) :
    AscendingLabels (label :: rest) where
  comparable := List.forall_mem_cons.mpr ⟨hlabel, hrest.comparable⟩
  ascending := List.pairwise_cons.mpr ⟨hbelow, hrest.ascending⟩

/-! ## Outputs -/

/-- All outputs are fitted to the type that is known, and the labels ascend from the one before. -/
theorem stops_derives {operator : StopOperator} {type : ValueType} :
    ∀ {previous : Option Float} {args : List Operand} {found : List (Float × Expr)}
      {shared : Option ValueType},
      (∀ o ∈ args, o.Sound) → (∀ p, previous = some p → p.isNaN = false) →
        stops operator previous (some type) args = .ok (found, shared) →
          ∃ rest : List (Float × Typed), found = rest.map (Prod.map id Typed.expr) ∧
            shared = some type ∧ AscendingLabels (rest.map (·.1)) ∧
            (∀ p, previous = some p → ∀ label ∈ rest.map (·.1), p < label) ∧
            ∀ stop ∈ rest, Derives .fitted (some type) stop.2
  | _, [], _, _, _, _, h => by
    obtain ⟨rfl, rfl⟩ := Prod.mk.inj (Except.ok.inj (h : Except.ok ([], some type) = _))
    exact ⟨[], rfl, rfl, ⟨by simp, by simp⟩, by simp, by simp⟩
  | _, [_], _, _, _, _, h => by contradiction
  | previous, label :: result :: args, found, shared, hargs, hprevious, h => by
    obtain ⟨_, hargs⟩ := List.forall_mem_cons.mp hargs
    obtain ⟨hresult, hargs⟩ := List.forall_mem_cons.mp hargs
    simp only [stops, Except.seq_eq_ok_iff, Except.pure_eq_ok_iff] at h
    obtain ⟨x, hx, output, houtput, ⟨others, shared'⟩, hrest, h⟩ := h
    obtain ⟨rfl, rfl⟩ := Prod.mk.inj h
    obtain ⟨hnan, habove⟩ := stopLabel_above hx hprevious
    -- the label that was found is the one before the others
    have hnext : ∀ p, some x = some p → p.isNaN = false := by
      rintro p ⟨⟩
      exact hnan
    obtain ⟨rest, rfl, rfl, hlabels, hbelow, houtputs⟩ := stops_derives hargs hnext hrest
    refine ⟨(x, output) :: rest, rfl, rfl, .cons hnan hlabels (hbelow x rfl), ?_, ?_⟩
    · intro p hp
      refine List.forall_mem_cons.mpr ⟨habove p hp, fun other hother => ?_⟩
      exact Number.lt_trans (habove p hp) (hbelow x rfl other hother)
    · exact List.forall_mem_cons.mpr ⟨hresult.check houtput, houtputs⟩

/-! ## Rules -/

theorem stepRule_sound : Rule.Sound stepRule := by
  intro args expected typed hargs h
  unfold stepRule at h
  split at h
  · contradiction
  · split at h
    · contradiction
    · split at h
      next input first rest =>
        obtain ⟨hinput, hargs⟩ := List.forall_mem_cons.mp hargs
        obtain ⟨hfirst, hargs⟩ := List.forall_mem_cons.mp hargs
        simp only [Except.seq_eq_ok_iff, Except.pure_eq_ok_iff] at h
        obtain ⟨input', hinput', first', hfirst', ⟨found, shared⟩, hstops, rfl⟩ := h
        obtain ⟨input'', hinput'', rfl⟩ := hinput.checkExpr hinput'
        obtain ⟨rest, rfl, _, hlabels, _, houtputs⟩ := stops_derives hargs (by simp) hstops
        have hstep := Derives.step hinput'' hlabels (hfirst.check hfirst') houtputs
        exact hstep
      · contradiction

theorem interpolateRule_sound : Rule.Sound interpolateRule := by
  intro args expected typed hargs h
  unfold interpolateRule at h
  split at h
  · contradiction
  next hlength =>
    split at h
    · contradiction
    · rcases args with _ | ⟨kind, _ | ⟨input, _ | ⟨label, _ | ⟨result, rest⟩⟩⟩⟩
      · exact absurd hlength (by simp)
      · exact absurd hlength (by simp)
      · exact absurd hlength (by simp)
      · exact absurd hlength (by simp)
      · obtain ⟨_, hargs⟩ := List.forall_mem_cons.mp hargs
        obtain ⟨hinput, hargs⟩ := List.forall_mem_cons.mp hargs
        obtain ⟨_, hargs⟩ := List.forall_mem_cons.mp hargs
        obtain ⟨hresult, hargs⟩ := List.forall_mem_cons.mp hargs
        simp only [stops, Except.seq_eq_ok_iff, Except.pure_eq_ok_iff] at h
        obtain ⟨kind', _, input', hinput', ⟨found, shared⟩, hstops, h⟩ := h
        obtain ⟨x, hx, first, hfirst, ⟨others, shared'⟩, hrest, heq⟩ := hstops
        obtain ⟨rfl, rfl⟩ := Prod.mk.inj heq
        obtain ⟨input'', hinput'', rfl⟩ := hinput.checkExpr hinput'
        obtain ⟨hnan, _⟩ := stopLabel_above hx (by simp)
        have hnext : ∀ p, some x = some p → p.isNaN = false := by
          rintro p ⟨⟩
          exact hnan
        obtain ⟨rest, rfl, rfl, hlabels, hbelow, houtputs⟩ := stops_derives hargs hnext hrest
        split at h
        next hinterpolable =>
          obtain rfl := Except.pure_eq_ok_iff.mp h
          exact .interpolate hinput'' (.cons hnan hlabels (hbelow x rfl)) (hresult.check hfirst)
            houtputs hinterpolable
        next => contradiction

end Typing

end Symbology
