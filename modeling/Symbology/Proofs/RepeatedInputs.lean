import Symbology.Proofs.CategoricalStops
import Symbology.Proofs.ZoomRule

set_option autoImplicit false

/-! # Which repeated inputs are left out

A categorical function keeps the first of several stops with the same input. Inputs are the same
here if they compare equal as JSON values, but the labels of a choice have to differ as values at
run time. So a function is refused if two of its inputs are told apart only in JSON: a number that
is written as an integer and with a point, or two integers that become the same floating-point
number (`categorical_compiles_iff`). -/

namespace Symbology.StopFunction

open Typing

/-! ## The stops that are kept -/

theorem firstOfEach_sublist (seen : List Json) (stops : List (Json × Json)) :
    (firstOfEach seen stops).Sublist stops := by
  fun_induction firstOfEach seen stops with
  | case1 => exact List.Sublist.slnil
  | case2 seen input output rest hrepeated ih => exact ih.cons _
  | case3 seen input output rest hnew ih => exact ih.cons_cons _

/-- What is kept has an input that was not seen. -/
theorem not_seen_of_mem {seen : List Json} {stops : List (Json × Json)} {stop : Json × Json}
    (h : stop ∈ firstOfEach seen stops) : ∀ input ∈ seen, (stop.1 == input) = false := by
  fun_induction firstOfEach seen stops with
  | case1 => contradiction
  | case2 seen input output rest hrepeated ih => exact ih h
  | case3 seen input output rest hnew ih =>
    rcases List.mem_cons.mp h with rfl | hrest
    · intro earlier hearlier
      rw [List.contains_eq_any_beq, List.any_eq_true] at hnew
      exact Bool.eq_false_of_not_eq_true (fun hequal => hnew ⟨earlier, hearlier, hequal⟩)
    · exact (List.forall_mem_cons.mp (ih hrest)).2

/-- The inputs that are kept differ. -/
theorem firstOfEach_distinct (seen : List Json) (stops : List (Json × Json)) :
    (firstOfEach seen stops).Pairwise (fun a b => (b.1 == a.1) = false) := by
  fun_induction firstOfEach seen stops with
  | case1 => exact .nil
  | case2 seen input output rest hrepeated ih => exact ih
  | case3 seen input output rest hnew ih =>
    exact ih.cons fun stop hstop => not_seen_of_mem hstop input List.mem_cons_self

/-- Every input equals one that is kept, or one that was seen. -/
theorem exists_kept {seen : List Json} {stops : List (Json × Json)} {stop : Json × Json}
    (h : stop ∈ stops) :
    (∃ input ∈ seen, (stop.1 == input) = true) ∨
      ∃ kept ∈ firstOfEach seen stops, (stop.1 == kept.1) = true := by
  fun_induction firstOfEach seen stops with
  | case1 => contradiction
  | case2 seen input output rest hrepeated ih =>
    rcases List.mem_cons.mp h with rfl | hrest
    · rw [List.contains_eq_any_beq, List.any_eq_true] at hrepeated
      exact Or.inl hrepeated
    · exact ih hrest
  | case3 seen input output rest hnew ih =>
    rcases List.mem_cons.mp h with rfl | hrest
    · exact Or.inr ⟨_, List.mem_cons_self, BEq.rfl⟩
    · rcases ih hrest with ⟨earlier, hearlier, hequal⟩ | ⟨kept, hkept, hequal⟩
      · rcases List.mem_cons.mp hearlier with rfl | hseen
        · exact Or.inr ⟨_, List.mem_cons_self, hequal⟩
        · exact Or.inl ⟨earlier, hseen, hequal⟩
      · exact Or.inr ⟨kept, List.mem_cons_of_mem _ hkept, hequal⟩

/-- Every input of a function equals one that is kept. -/
theorem exists_kept_of_mem {stops : List (Json × Json)} {stop : Json × Json} (h : stop ∈ stops) :
    ∃ kept ∈ firstOfEach [] stops, (stop.1 == kept.1) = true := by
  rcases exists_kept h with ⟨input, hseen, _⟩ | hkept
  · exact absurd hseen List.not_mem_nil
  · exact hkept

/-! ## Inputs that are told apart -/

/-- Inputs that are equal at run time are equal as JSON values. -/
def InputsToldApart (stops : List (Json × Json)) : Prop :=
  ∀ a ∈ stops, ∀ b ∈ stops, (Value.ofJson a.1 == Value.ofJson b.1) = true → (a.1 == b.1) = true

/-- **The inputs that are kept differ at run time** exactly when all inputs are told apart. -/
theorem distinct_values_iff {stops : List (Json × Json)} :
    (firstOfEach [] stops).Pairwise (fun a b => (Value.ofJson b.1 == Value.ofJson a.1) = false) ↔
      InputsToldApart stops := by
  constructor
  · intro hdistinct a ha b hb hequal
    obtain ⟨a', ha', haa'⟩ := exists_kept_of_mem ha
    obtain ⟨b', hb', hbb'⟩ := exists_kept_of_mem hb
    -- both inputs are equal to the same one that is kept
    have hkept : (Value.ofJson b'.1 == Value.ofJson a'.1) = true :=
      BEq.trans (BEq.symm (Value.ofJson_beq hbb'))
        (BEq.trans (BEq.symm hequal) (Value.ofJson_beq haa'))
    by_cases hsame : a' = b'
    · subst hsame
      exact BEq.trans haa' (BEq.symm hbb')
    · have hsymm : Std.Symm (fun a b : Json × Json =>
          (Value.ofJson b.1 == Value.ofJson a.1) = false) := ⟨fun a b h => by rwa [BEq.comm]⟩
      have hdiffer := hdistinct.forall ha' hb' hsame
      rw [hkept] at hdiffer
      contradiction
  · intro happart
    have hsubset := (firstOfEach_sublist [] stops).subset
    refine (firstOfEach_distinct [] stops).imp_of_mem fun {a b} ha hb hdiffer => ?_
    refine Bool.eq_false_of_not_eq_true (fun hequal => ?_)
    rw [happart b (hsubset hb) a (hsubset ha) hequal] at hdiffer
    contradiction

/-! ## Choices -/

/-- A number, a text or a truth value lists itself. -/
theorem labels_of_scalar {input : Json} (h : (labelValue? input).isSome = true) :
    (listedLabels input).mapM labelValue? = some [.ofJson input] := by
  cases input with
  | null | array _ | object _ => contradiction
  | _ => rfl

theorem SpellBranches.flatten_labels {type : ValueType} {stops : List (Json × Json)}
    {branches : List (List Value × Expr)} (h : SpellBranches type stops branches)
    (hscalar : ∀ stop ∈ stops, (labelValue? stop.1).isSome = true) :
    (branches.map (·.1)).flatten = stops.map (fun stop => .ofJson stop.1) := by
  induction h with
  | nil => rfl
  | cons hbranch _ ih =>
    obtain ⟨hfirst, hrest⟩ := List.forall_mem_cons.mp hscalar
    have hlabels := Option.some.inj ((labels_of_scalar hfirst).symm.trans hbranch.1)
    rw [List.map_cons, List.flatten_cons, ih hrest, ← hlabels]
    rfl

/-- Stops with such inputs spell the branches of a choice exactly when the inputs differ at run
time. -/
theorem exists_branches_iff {type : ValueType} {stops : List (Json × Json)}
    (hscalar : ∀ stop ∈ stops, (labelValue? stop.1).isSome = true)
    (houtputs : ∀ stop ∈ stops, ∃ expr, stop.2.Spells type expr) :
    (∃ branches, SpellBranches type stops branches ∧ DistinctLabels (branches.map (·.1))) ↔
      stops.Pairwise (fun a b => (Value.ofJson b.1 == Value.ofJson a.1) = false) := by
  have hpairwise : ∀ {branches}, SpellBranches type stops branches →
      ((branches.map (·.1)).flatten.Pairwise (fun a b => (b == a) = false) ↔
        stops.Pairwise (fun a b => (Value.ofJson b.1 == Value.ofJson a.1) = false)) := by
    intro branches hbranches
    rw [hbranches.flatten_labels hscalar, List.pairwise_map]
  constructor
  · rintro ⟨branches, hbranches, hlabelled⟩
    exact (hpairwise hbranches).mp hlabelled.distinct
  · intro hdistinct
    have hbranch : ∀ stop ∈ stops, ∃ branch : List Value × Expr,
        (listedLabels stop.1).mapM labelValue? = some branch.1 ∧ stop.2.Spells type branch.2 := by
      intro stop hstop
      obtain ⟨expr, hexpr⟩ := houtputs stop hstop
      exact ⟨([.ofJson stop.1], expr), labels_of_scalar (hscalar stop hstop), hexpr⟩
    obtain ⟨branches, hbranches⟩ := List.exists_forall₂ hbranch
    refine ⟨branches, hbranches, ?_, ?_, (hpairwise hbranches).mpr hdistinct⟩
    · refine List.forall_mem_map.mpr (fun branch hmem => ?_)
      obtain ⟨stop, hstop, hlabels, _⟩ := hbranches.exists_of_mem_right hmem
      rw [← Option.some.inj ((labels_of_scalar (hscalar stop hstop)).symm.trans hlabels)]
      exact List.cons_ne_nil _ _
    · rw [SpellBranches.flatten_labels hbranches hscalar]
      refine List.forall_mem_map.mpr (fun stop hstop => ?_)
      obtain ⟨value, hvalue⟩ := Option.isSome_iff_exists.mp (hscalar stop hstop)
      rw [← eq_ofJson_of_labelValue hvalue]
      exact isLabel_of_labelValue hvalue

/-! ## Functions -/

variable {spec : PropertySpec} {options : CompileOptions} {name : String}

/-- A default that is a constant other than `null` can be compiled. -/
theorem exists_default (hdefaults : ∀ json, options.default = some json ∨ spec.default = some json →
    IsConstant spec.type json) :
    ∃ default, (PropertyExpression.chosenDefault spec options).mapM
      (PropertyExpression.defaultValue spec.type) = .ok default := by
  cases hchosen : PropertyExpression.chosenDefault spec options with
  | none => exact ⟨none, rfl⟩
  | some chosen =>
    -- the chosen default is one of the two, and not `null`
    have horigin : (options.default = some chosen ∨ spec.default = some chosen) ∧
        chosen.isNull = false := by
      rw [PropertyExpression.chosenDefault, PropertySpec.default?, Option.or_eq_some_iff] at hchosen
      simp only [Option.filter_eq_some_iff, Bool.not_eq_true'] at hchosen
      rcases hchosen with ⟨hown, hfilled⟩ | ⟨_, hshared, hfilled⟩
      · exact ⟨Or.inl hown, hfilled⟩
      · exact ⟨Or.inr hshared, hfilled⟩
    obtain ⟨value, hvalue, hfits⟩ := hdefaults chosen horigin.1
    have haccepts : spec.type.accepts value.type = true := by
      refine hfits.resolve_left (fun hnull => ?_)
      rw [hvalue.eq_null_iff.mp hnull] at horigin
      exact absurd horigin.2 (by simp [Json.isNull])
    have hread := PropertyExpression.defaultValue_eq_ok_iff.mpr ⟨hvalue, haccepts⟩
    exact ⟨some value, Except.map_eq_ok_iff.mpr ⟨value, hread, rfl⟩⟩

/-- A function of a property compiles if its expression spells a tree. -/
theorem exists_compile_of_spells (body : Body) {expr : Expr}
    (hspells : (body.expression name).Spells spec.type expr) (hdata : spec.featureDependent = true)
    (hdefaults : ∀ json, options.default = some json ∨ spec.default = some json →
      IsConstant spec.type json) :
    ∃ compiled, PropertyExpression.compile (body.expression name) spec options = .ok compiled := by
  have hconstant := (Body.hasTree_of_spells hspells).isZoomConstant
  obtain ⟨typed, hcheck, rfl⟩ := hspells
  obtain ⟨default, hdefault⟩ := exists_default hdefaults
  obtain ⟨compiled, hcompile, _⟩ :=
    PropertyExpression.exists_compile hcheck (Or.inr hdata) (Or.inl hconstant) hdefault
  exact ⟨compiled, hcompile⟩

theorem isComposite_of_scalar {stops : List (Json × Json)}
    (hinputs : ∀ stop ∈ stops, (labelValue? stop.1).isSome = true) : isComposite stops = false := by
  rcases stops with _ | ⟨⟨input, output⟩, rest⟩
  · rfl
  · have hfirst := hinputs _ List.mem_cons_self
    cases input with
    | object members => contradiction
    | _ => rfl

theorem isConstant_fallback {default shared : Option Json} {type : ValueType}
    (hdefaults : ∀ json, default = some json ∨ shared = some json → IsConstant type json) :
    IsConstant type ((default.or shared).getD .null) := by
  cases default with
  | some default => exact hdefaults default (Or.inl rfl)
  | none =>
    cases shared with
    | some shared => exact hdefaults shared (Or.inr rfl)
    | none => exact ⟨.null, Json.denotes_null, Or.inl rfl⟩

/-- **Which categorical functions compile.** A function whose inputs are numbers, texts and truth
values, and whose outputs and defaults are constants, is always read. It compiles exactly when its
inputs are told apart. -/
theorem categorical_compiles_iff {members : List (String × Json)} {written : List (Json × Json)}
    {converted : Bool} (htype : members.lookup "type" = some (.string "categorical"))
    (hname : members.lookup "property" = some (.string name))
    (hstops : members.lookup "stops" = some (writtenStops written)) (hne : written ≠ [])
    (hbase : ∀ json, members.lookup "base" = some json → ∃ n, json = .number n)
    (hinputs : ∀ stop ∈ written, (labelValue? stop.1).isSome = true)
    (houtputs : ∀ stop ∈ written, IsConstant spec.type stop.2)
    (hdefaults : ∀ json, members.lookup "default" = some json ∨ spec.default = some json →
      IsConstant spec.type json)
    (hdata : spec.featureDependent = true) :
    ∃ function, read (.object members) spec = .ok function ∧
      ((∃ compiled, PropertyExpression.compile function.expression spec
        { default := members.lookup "default", converted } = .ok compiled) ↔
          InputsToldApart written) := by
  have hplain := isComposite_of_scalar hinputs
  have hsubset := (firstOfEach_sublist [] written).subset
  have hbaseRead : ∃ base', base (members.lookup "base") = .ok base' := by
    cases hwritten : members.lookup "base" with
    | none => exact ⟨none, rfl⟩
    | some json =>
      obtain ⟨n, rfl⟩ := hbase json hwritten
      exact ⟨_, rfl⟩
  refine ⟨_, (read_eq_ok_iff_of_categorical htype hname hstops hplain).mpr
    ⟨hne, hbaseRead, rfl⟩, ?_⟩
  -- the kept stops spell branches exactly when all inputs are told apart
  have hbranches : (∃ branches, SpellBranches spec.type (quotedOutputs (firstOfEach [] written))
      branches ∧ DistinctLabels (branches.map (·.1))) ↔ InputsToldApart written := by
    rw [exists_branches_iff, quotedOutputs, List.pairwise_map, distinct_values_iff]
    · exact List.forall_mem_map.mpr (fun stop hstop => hinputs stop (hsubset hstop))
    · exact List.forall_mem_map.mpr
        (fun stop hstop => exists_spells_quoted (houtputs stop (hsubset hstop)))
  rw [← hbranches]
  constructor
  · rintro ⟨compiled, hcompile⟩
    obtain ⟨_, branches, _, hspelled, hlabelled, _⟩ :=
      spells_match.mp (PropertyExpression.spells_of_compile hcompile)
    exact ⟨branches, hspelled, hlabelled⟩
  · rintro ⟨branches, hspelled, hlabelled⟩
    obtain ⟨otherwise, hotherwise⟩ := exists_spells_quoted (isConstant_fallback hdefaults)
    have hkept : quotedOutputs (firstOfEach [] written) ≠ [] := by
      obtain ⟨stop, hstop⟩ := List.exists_mem_of_ne_nil _ hne
      obtain ⟨kept, hmem, _⟩ := exists_kept_of_mem hstop
      exact List.ne_nil_of_mem (List.mem_map_of_mem hmem)
    exact exists_compile_of_spells (.categorical written _)
      (spells_match.mpr ⟨hkept, branches, otherwise, hspelled, hlabelled, hotherwise, rfl⟩) hdata
      hdefaults

/-- Stops of text, one for each input. -/
def textStops (inputs : List Json.Number) : List (Json × Json) :=
  inputs.map (fun input => (.number input, .string "a"))

/-- A function whose inputs are repeated as they are written compiles. -/
theorem categorical_compiles_iff_repeated :
    ∃ function compiled, read (.object [("property", .string "class"),
        ("stops", writtenStops (textStops [.integer 1, .integer 2, .integer 1])),
        ("type", .string "categorical")]) { kind := .string } = .ok function ∧
      PropertyExpression.compile function.expression { kind := .string } {} = .ok compiled := by
  obtain ⟨function, hread, hiff⟩ :
      ∃ function, read (.object [("property", .string "class"),
          ("stops", writtenStops (textStops [.integer 1, .integer 2, .integer 1])),
          ("type", .string "categorical")]) { kind := .string } = .ok function ∧
        ((∃ compiled, PropertyExpression.compile function.expression { kind := .string } {} =
          .ok compiled) ↔ InputsToldApart (textStops [.integer 1, .integer 2, .integer 1])) :=
    categorical_compiles_iff rfl rfl rfl (by simp [textStops]) (by simp [List.lookup])
      (by simp [textStops, labelValue?])
      (List.forall_mem_map.mpr (fun _ _ => isConstant_string "a")) (by simp [List.lookup]) rfl
  have happart : InputsToldApart (textStops [.integer 1, .integer 2, .integer 1]) := by
    unfold InputsToldApart
    decide
  obtain ⟨compiled, hcompile⟩ := hiff.mpr happart
  exact ⟨function, compiled, hread, hcompile⟩

/-- So not every categorical function compiles whose outputs and defaults are constants: the inputs
may be one number, written as an integer and with a point. -/
theorem not_categorical_compiles :
    ¬∀ (spec : PropertySpec) (members : List (String × Json)) (name : String)
      (written : List (Json × Json)),
      members.lookup "type" = some (.string "categorical") →
      members.lookup "property" = some (.string name) →
      members.lookup "stops" = some (writtenStops written) → written ≠ [] →
      members.lookup "base" = none →
      (∀ stop ∈ written, (labelValue? stop.1).isSome = true) →
      (∀ stop ∈ written, IsConstant spec.type stop.2) →
      members.lookup "default" = none → spec.default = none → spec.featureDependent = true →
      ∃ function compiled, read (.object members) spec = .ok function ∧
        PropertyExpression.compile function.expression spec {} = .ok compiled := by
  intro h
  obtain ⟨function, compiled, hread, hcompile⟩ := h { kind := .string }
    [("property", .string "class"),
      ("stops", writtenStops (textStops [.integer 1, .float 1 rfl])),
      ("type", .string "categorical")] "class" _ rfl rfl rfl (by simp [textStops]) rfl
    (by simp [textStops, labelValue?])
    (List.forall_mem_map.mpr (fun _ _ => isConstant_string "a")) rfl rfl rfl
  obtain rfl : overProperty "class"
      (.categorical (textStops [.integer 1, .float 1 rfl]) .null) = function :=
    Except.ok.inj hread
  have hrefused : (PropertyExpression.compile (overProperty "class" (.categorical
      (textStops [.integer 1, .float 1 rfl]) .null)).expression { kind := .string } {}).isOk =
        false := by decide
  rw [hcompile] at hrefused
  contradiction

end Symbology.StopFunction
