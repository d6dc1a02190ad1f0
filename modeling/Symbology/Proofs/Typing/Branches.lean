import Symbology.Proofs.Typing.Rules

set_option autoImplicit false

/-! # Operators with branches find derivations

Once the type of the outputs is known, every further output is fitted to it. So the loops over the
branches are looked at with a known type first; the branch that settles the type is put in front. -/

namespace Symbology.Typing

/-! ## Choice by conditions -/

/-- After the first branch: all outputs are fitted to the type that is known. -/
theorem caseBranches_derives {type : ValueType} :
    ∀ {args : List Operand} {branches : List (Expr × Expr)} {otherwise : Typed},
      (∀ o ∈ args, o.Sound) → caseBranches (some type) args = .ok (branches, otherwise) →
        ∃ (rest : List (Typed × Typed)) (last : Typed),
          branches = rest.map (Prod.map Typed.expr Typed.expr) ∧ otherwise = ⟨last.expr, type⟩ ∧
          (∀ branch ∈ rest, Derives .fitted (some .boolean) branch.1) ∧
          (∀ branch ∈ rest, Derives .fitted (some type) branch.2) ∧
          Derives .fitted (some type) last
  | [], _, _, _, h => by contradiction
  | [last], branches, otherwise, hargs, h => by
    simp only [caseBranches, Except.seq_eq_ok_iff, Except.pure_eq_ok_iff] at h
    obtain ⟨typed, hlast, h⟩ := h
    obtain ⟨rfl, rfl⟩ := Prod.mk.inj h
    have hsound : last.Sound := List.forall_mem_singleton.mp hargs
    exact ⟨[], typed, rfl, rfl, by simp, by simp, hsound.check hlast⟩
  | condition :: result :: args, branches, otherwise, hargs, h => by
    obtain ⟨hcondition, hargs⟩ := List.forall_mem_cons.mp hargs
    obtain ⟨hresult, hargs⟩ := List.forall_mem_cons.mp hargs
    simp only [caseBranches, Except.seq_eq_ok_iff, Except.pure_eq_ok_iff] at h
    obtain ⟨test, htest, output, houtput, ⟨others, otherwise'⟩, hrest, h⟩ := h
    obtain ⟨rfl, rfl⟩ := Prod.mk.inj h
    obtain ⟨test', htest', rfl⟩ := hcondition.checkExpr htest
    obtain ⟨rest, last, rfl, rfl, hconditions, houtputs, hlast⟩ := caseBranches_derives hargs hrest
    refine ⟨(test', output) :: rest, last, rfl, rfl, ?_, ?_, hlast⟩
    · exact List.forall_mem_cons.mpr ⟨htest', hconditions⟩
    · exact List.forall_mem_cons.mpr ⟨hresult.check houtput, houtputs⟩

theorem caseRule_sound : Rule.Sound caseRule := by
  intro args expected typed hargs h
  unfold caseRule at h
  split at h
  · contradiction
  next hlength =>
    split at h
    · contradiction
    next =>
      simp only [Except.seq_eq_ok_iff, Except.pure_eq_ok_iff] at h
      obtain ⟨⟨branches, otherwise⟩, hbranches, rfl⟩ := h
      rcases args with _ | ⟨condition, _ | ⟨result, rest⟩⟩
      · exact absurd hlength (by simp)
      · exact absurd hlength (by simp)
      · obtain ⟨hcondition, hargs⟩ := List.forall_mem_cons.mp hargs
        obtain ⟨hresult, hargs⟩ := List.forall_mem_cons.mp hargs
        simp only [caseBranches, Except.seq_eq_ok_iff, Except.pure_eq_ok_iff] at hbranches
        obtain ⟨test, htest, output, houtput, ⟨others, otherwise'⟩, hrest, h⟩ := hbranches
        obtain ⟨rfl, rfl⟩ := Prod.mk.inj h
        obtain ⟨test', htest', rfl⟩ := hcondition.checkExpr htest
        -- the first output settles the type that all others are fitted to
        obtain ⟨rest, last, rfl, rfl, hconditions, houtputs, hlast⟩ :=
          caseBranches_derives hargs hrest
        have hcase := Derives.case htest' (hresult.check houtput) hconditions houtputs hlast
        exact hcase

/-! ## Choice by labels -/

theorem isLabel_of_labelValue {json : Json} {value : Value} (h : labelValue? json = some value) :
    isLabel value = true := by
  unfold labelValue? at h
  split at h
  · contradiction
  · contradiction
  · contradiction
  next hnull harray hobject =>
    obtain rfl := Option.some.inj h
    cases json with
    | null => exact absurd rfl hnull
    | array items => exact absurd rfl (harray items)
    | object members => exact absurd rfl (hobject members)
    | _ => rfl

/-- The labels of one branch can stand as labels, and none equals one before it or one `seen`. -/
theorem labelValues_distinct :
    ∀ {seen : List Value} {labels : List Json} {values : List Value},
      labelValues seen labels = .ok values →
        values.length = labels.length ∧ (∀ value ∈ values, isLabel value = true) ∧
        values.Pairwise (fun a b => (b == a) = false) ∧
        ∀ value ∈ values, ∀ a ∈ seen, (value == a) = false
  | seen, [], values, h => by
    obtain rfl := Except.ok.inj (h : Except.ok [] = _)
    simp
  | seen, label :: rest, values, h => by
    rw [labelValues] at h
    split at h
    · contradiction
    next value hvalue =>
      split at h
      · contradiction
      next hseen =>
        obtain ⟨others, hothers, rfl⟩ := Except.map_eq_ok_iff.mp h
        obtain ⟨hlength, hlabel, hdistinct, hfresh⟩ := labelValues_distinct hothers
        refine ⟨congrArg (· + 1) hlength, ?_, ?_, ?_⟩
        · exact List.forall_mem_cons.mpr ⟨isLabel_of_labelValue hvalue, hlabel⟩
        · refine List.pairwise_cons.mpr ⟨fun other hother => ?_, hdistinct⟩
          exact hfresh other hother value List.mem_cons_self
        · refine List.forall_mem_cons.mpr ⟨fun a ha => ?_, fun other hother a ha => ?_⟩
          · rw [List.contains_eq_any_beq, List.any_eq_true] at hseen
            exact Bool.eq_false_of_not_eq_true (fun heq => hseen ⟨a, ha, heq⟩)
          · exact hfresh other hother a (List.mem_cons_of_mem value ha)

theorem branchLabels_distinct {seen : List Value} {o : Operand} {values : List Value}
    (h : branchLabels seen o = .ok values) :
    values ≠ [] ∧ (∀ value ∈ values, isLabel value = true) ∧
      values.Pairwise (fun a b => (b == a) = false) ∧
      ∀ value ∈ values, ∀ a ∈ seen, (value == a) = false := by
  have hvalues : ∃ labels, labels ≠ [] ∧ labelValues seen labels = .ok values := by
    unfold branchLabels at h
    split at h
    · contradiction
    next labels hne _ =>
      rw [Operand.located_eq_ok_iff, Except.mapError_eq_ok_iff] at h
      exact ⟨labels, fun hnil => hne (by rw [hnil]), h⟩
    next =>
      rw [Operand.located_eq_ok_iff, Except.mapError_eq_ok_iff] at h
      exact ⟨[o.json], List.cons_ne_nil o.json [], h⟩
  obtain ⟨labels, hne, hvalues⟩ := hvalues
  obtain ⟨hlength, hrest⟩ := labelValues_distinct hvalues
  refine ⟨fun hnil => hne ?_, hrest⟩
  rw [hnil] at hlength
  exact List.length_eq_zero_iff.mp hlength.symm

/-- One more branch in front, if no later label equals one of its labels. -/
theorem DistinctLabels.cons {labels : List Value} {rest : List (List Value)} (hne : labels ≠ [])
    (hscalar : ∀ label ∈ labels, isLabel label = true)
    (hdistinct : labels.Pairwise (fun a b => (b == a) = false)) (hrest : DistinctLabels rest)
    (hfresh : ∀ a ∈ labels, ∀ b ∈ rest.flatten, (b == a) = false) :
    DistinctLabels (labels :: rest) where
  nonempty := List.forall_mem_cons.mpr ⟨hne, hrest.nonempty⟩
  scalar := List.forall_mem_append.mpr ⟨hscalar, hrest.scalar⟩
  distinct := List.pairwise_append.mpr ⟨hdistinct, hrest.distinct, hfresh⟩

theorem DistinctLabels.of_cons {labels : List Value} {rest : List (List Value)}
    (h : DistinctLabels (labels :: rest)) :
    labels ≠ [] ∧ labels.Pairwise (fun a b => (b == a) = false) ∧ DistinctLabels rest ∧
      ∀ a ∈ labels, ∀ b ∈ rest.flatten, (b == a) = false := by
  obtain ⟨hnonempty, hscalar, hdistinct⟩ := h
  obtain ⟨hne, hnonempty⟩ := List.forall_mem_cons.mp hnonempty
  obtain ⟨_, hscalar⟩ := List.forall_mem_append.mp hscalar
  obtain ⟨hlabels, hrest, hapart⟩ := List.pairwise_append.mp hdistinct
  exact ⟨hne, hlabels, ⟨hnonempty, hscalar, hrest⟩, hapart⟩

/-- After the first branch: all outputs are fitted to the type that is known, and no label equals
one that was `seen`. -/
theorem selectBranches_derives {type : ValueType} :
    ∀ {seen : List Value} {args : List Operand} {branches : List (List Value × Expr)}
      {otherwise : Typed},
      (∀ o ∈ args, o.Sound) →
        selectBranches seen (some type) args = .ok (branches, otherwise) →
          ∃ (rest : List (List Value × Typed)) (last : Typed),
            branches = rest.map (Prod.map id Typed.expr) ∧ otherwise = ⟨last.expr, type⟩ ∧
            DistinctLabels (rest.map (·.1)) ∧
            (∀ value ∈ (rest.map (·.1)).flatten, ∀ a ∈ seen, (value == a) = false) ∧
            (∀ branch ∈ rest, Derives .fitted (some type) branch.2) ∧
            Derives .fitted (some type) last
  | _, [], _, _, _, h => by contradiction
  | seen, [last], branches, otherwise, hargs, h => by
    simp only [selectBranches, Except.seq_eq_ok_iff, Except.pure_eq_ok_iff] at h
    obtain ⟨typed, hlast, h⟩ := h
    obtain ⟨rfl, rfl⟩ := Prod.mk.inj h
    have hsound : last.Sound := List.forall_mem_singleton.mp hargs
    exact ⟨[], typed, rfl, rfl, ⟨by simp, by simp, by simp⟩, by simp, by simp, hsound.check hlast⟩
  | seen, label :: result :: args, branches, otherwise, hargs, h => by
    obtain ⟨_, hargs⟩ := List.forall_mem_cons.mp hargs
    obtain ⟨hresult, hargs⟩ := List.forall_mem_cons.mp hargs
    simp only [selectBranches, Except.seq_eq_ok_iff, Except.pure_eq_ok_iff] at h
    obtain ⟨labels, hlabels, output, houtput, ⟨others, otherwise'⟩, hrest, h⟩ := h
    obtain ⟨rfl, rfl⟩ := Prod.mk.inj h
    obtain ⟨hne, hscalar, hpairwise, hfresh⟩ := branchLabels_distinct hlabels
    obtain ⟨rest, last, rfl, rfl, hdistinct, hrestFresh, houtputs, hlast⟩ :=
      selectBranches_derives hargs hrest
    -- the branches behind have seen these labels and those seen before
    refine ⟨(labels, output) :: rest, last, rfl, rfl, ?_, ?_, ?_, hlast⟩
    · refine .cons hne hscalar hpairwise hdistinct (fun a ha b hb => ?_)
      exact hrestFresh b hb a (List.mem_append_left seen ha)
    · refine List.forall_mem_append.mpr ⟨hfresh, fun value hvalue a ha => ?_⟩
      exact hrestFresh value hvalue a (List.mem_append_right labels ha)
    · exact List.forall_mem_cons.mpr ⟨hresult.check houtput, houtputs⟩

theorem matchRule_sound : Rule.Sound matchRule := by
  intro args expected typed hargs h
  unfold matchRule at h
  split at h
  · contradiction
  next hlength =>
    split at h
    · contradiction
    next =>
      rcases args with _ | ⟨input, _ | ⟨label, _ | ⟨result, rest⟩⟩⟩
      · exact absurd hlength (by simp)
      · exact absurd hlength (by simp)
      · exact absurd hlength (by simp)
      · obtain ⟨hinput, hargs⟩ := List.forall_mem_cons.mp hargs
        obtain ⟨_, hargs⟩ := List.forall_mem_cons.mp hargs
        obtain ⟨hresult, hargs⟩ := List.forall_mem_cons.mp hargs
        simp only [selectBranches, Except.seq_eq_ok_iff, Except.pure_eq_ok_iff] at h
        obtain ⟨input', hinput', ⟨branches, otherwise⟩, hbranches, rfl⟩ := h
        obtain ⟨labels, hlabels, output, houtput, ⟨others, otherwise'⟩, hrest, h⟩ := hbranches
        obtain ⟨rfl, rfl⟩ := Prod.mk.inj h
        obtain ⟨input'', hinput'', rfl⟩ := hinput.checkExpr hinput'
        obtain ⟨hne, hscalar, hpairwise, _⟩ := branchLabels_distinct hlabels
        obtain ⟨rest, last, rfl, rfl, hdistinct, hfresh, houtputs, hlast⟩ :=
          selectBranches_derives hargs hrest
        have hlabelled : DistinctLabels (labels :: rest.map (·.1)) := by
          refine .cons hne hscalar hpairwise hdistinct (fun a ha b hb => ?_)
          exact hfresh b hb a (List.mem_append_left [] ha)
        have hselect := Derives.select hinput'' hlabelled (hresult.check houtput) houtputs hlast
        exact hselect

/-! ## The first value there is -/

/-- The arguments of `coalesce` are checked against the type that is wanted, or that of the first
argument that has one. -/
theorem coalesceArgs_derives :
    ∀ {output shared : Option ValueType} {args : List Operand} {exprs : List Expr},
      (∀ o ∈ args, o.Sound) → coalesceArgs output args = .ok (exprs, shared) →
        ∃ alternatives : List Alternative, alternatives.length = args.length ∧
          exprs = alternatives.map (fun arg => arg.typed.expr) ∧
          output.getD (shared.getD .value) = shared.getD .value ∧
          (∀ arg ∈ alternatives, arg.wanted = output ∨ arg.wanted = some (shared.getD .value)) ∧
          (∀ arg ∈ alternatives, arg.stage = .inferred →
            arg.typed.type = .value ∨ arg.typed.type = .null) ∧
          ∀ arg ∈ alternatives, Derives arg.stage arg.wanted arg.typed
  | output, shared, [], exprs, _, h => by
    obtain ⟨rfl, rfl⟩ := Prod.mk.inj (Except.ok.inj (h : Except.ok ([], output) = _))
    refine ⟨[], rfl, rfl, ?_, by simp, by simp, by simp⟩
    cases output <;> rfl
  | output, shared, o :: args, exprs, hargs, h => by
    obtain ⟨ho, hargs⟩ := List.forall_mem_cons.mp hargs
    rw [coalesceArgs, Except.seq_eq_ok_iff] at h
    obtain ⟨typed, htyped, h⟩ := h
    split at h
    next hloose =>
      -- left unchecked, and the type that is wanted stays open
      simp only [Except.seq_eq_ok_iff, Except.pure_eq_ok_iff] at h
      obtain ⟨⟨rest, shared'⟩, hrest, h⟩ := h
      obtain ⟨rfl, rfl⟩ := Prod.mk.inj h
      obtain ⟨others, hlength, rfl, hshared, hwanted, hstage, htyping⟩ :=
        coalesceArgs_derives hargs hrest
      refine ⟨⟨.inferred, output, typed⟩ :: others, congrArg (· + 1) hlength, rfl, hshared, ?_⟩
      refine ⟨List.forall_mem_cons.mpr ⟨Or.inl rfl, hwanted⟩, ?_, ?_⟩
      · exact List.forall_mem_cons.mpr ⟨fun _ => hloose, hstage⟩
      · exact List.forall_mem_cons.mpr ⟨ho.inferred htyped, htyping⟩
    next =>
      simp only [Except.seq_eq_ok_iff, Except.pure_eq_ok_iff, Operand.located_eq_ok_iff] at h
      obtain ⟨fitted, hfitted, ⟨rest, shared'⟩, hrest, h⟩ := h
      obtain ⟨rfl, rfl⟩ := Prod.mk.inj h
      obtain ⟨others, hlength, rfl, hshared, hwanted, hstage, htyping⟩ :=
        coalesceArgs_derives hargs hrest
      -- from here on the type is known, so the rest leaves it as it is
      have hknown : output.getD fitted.type = shared'.getD .value := hshared
      refine ⟨⟨.fitted, output, fitted⟩ :: others, congrArg (· + 1) hlength, rfl, ?_, ?_⟩
      · cases output with
        | none => rfl
        | some type => exact hknown
      · refine ⟨List.forall_mem_cons.mpr ⟨Or.inl rfl, fun arg harg => ?_⟩, ?_, ?_⟩
        · rw [← hknown]
          exact Or.inr ((hwanted arg harg).elim id (fun h => h.trans (congrArg some hknown.symm)))
        · exact List.forall_mem_cons.mpr ⟨fun hstage => Stage.noConfusion hstage, hstage⟩
        · exact List.forall_mem_cons.mpr ⟨.fit (ho.inferred htyped) hfitted, htyping⟩

theorem coalesceRule_sound : Rule.Sound coalesceRule := by
  intro args expected typed hargs h
  unfold coalesceRule at h
  split at h
  · contradiction
  next hlength =>
    simp only [Except.seq_eq_ok_iff, Except.pure_eq_ok_iff] at h
    obtain ⟨⟨exprs, shared⟩, hexprs, rfl⟩ := h
    obtain ⟨alternatives, hcount, rfl, hshared, hwanted, hloose, htyping⟩ :=
      coalesceArgs_derives hargs hexprs
    have hne : alternatives ≠ [] := List.ne_nil_of_length_pos (by omega)
    exact .coalesce hne hshared hwanted hloose htyping

end Symbology.Typing
