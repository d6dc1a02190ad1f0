import Symbology.Proofs.Expr.Choice
import Symbology.Proofs.StopFunction.Compiling
import Symbology.Proofs.StopFunction.Trees
import Symbology.Proofs.Value.Equality

set_option autoImplicit false

/-! # What a categorical function means

The output of a categorical function is that of the first stop that lists the value of the property
(`categorical_output`). The expression leaves out stops whose input is repeated, the tree compares
labels as values at run time, and the fallback is one of two defaults; nothing of this shows in the
result. -/

namespace Symbology.StopFunction

open Typing

/-! ## Leaving out repeated inputs -/

/-- A test that cannot tell equal inputs apart finds the same stop among those that are kept. -/
theorem find?_firstOfEach {test : Json → Bool}
    (htest : ∀ {a b : Json}, (a == b) = true → test a = test b) (seen : List Json)
    {stops : List (Json × Json)} (hseen : ∀ input ∈ seen, test input = false) :
    (firstOfEach seen stops).find? (fun stop => test stop.1) =
      stops.find? (fun stop => test stop.1) := by
  fun_induction firstOfEach seen stops with
  | case1 => rfl
  | case2 seen input output rest hrepeated ih =>
    rw [List.contains_eq_any_beq, List.any_eq_true] at hrepeated
    obtain ⟨earlier, hearlier, hequal⟩ := hrepeated
    have hmissed : test input = false := by rw [htest hequal, hseen earlier hearlier]
    rw [ih hseen, List.find?_cons_of_neg (by simp [hmissed])]
  | case3 seen input output rest hnew ih =>
    rw [List.find?_cons, List.find?_cons]
    cases hfound : test input with
    | true => rfl
    | false => exact ih (List.forall_mem_cons.mpr ⟨hfound, hseen⟩)

/-! ## Which stop lists a value -/

/-- The input lists the value: it is equal to it, or an array with an item that is. -/
def lists (input : Json) (value : Value) : Bool :=
  (listedLabels input).any (fun label => value == .ofJson label)

theorem any_ofJson_congr {as bs : List Json} (h : Json.beqItems as bs = true) (value : Value) :
    as.any (fun label => value == .ofJson label) =
      bs.any (fun label => value == .ofJson label) := by
  induction as generalizing bs with
  | nil =>
    cases bs with
    | nil => rfl
    | cons b bs => contradiction
  | cons a as ih =>
    cases bs with
    | nil => contradiction
    | cons b bs =>
      rw [Json.beqItems, Bool.and_eq_true] at h
      have hequal : (Value.ofJson a == Value.ofJson b) = true := Value.ofJson_beq h.1
      rw [List.any_cons, List.any_cons, ih h.2, BEq.congr_right hequal]

/-- Inputs that compare equal list the same values. -/
theorem lists_congr {a b : Json} (h : (a == b) = true) (value : Value) :
    lists a value = lists b value := by
  refine any_ofJson_congr ?_ value
  cases a <;> cases b
  case array.array => exact h
  all_goals first | contradiction | exact (Bool.and_true _).trans h

theorem eq_ofJson_of_labelValue {json : Json} {value : Value} (h : labelValue? json = some value) :
    value = .ofJson json := by
  cases json with
  | null | array _ | object _ => contradiction
  | _ => exact (Option.some.inj h).symm

/-- The labels of a branch are the values that the input lists. -/
theorem contains_labels {labels : List Json} {values : List Value}
    (h : labels.mapM labelValue? = some values) (value : Value) :
    values.contains value = labels.any (fun label => value == .ofJson label) := by
  rw [List.mapM_eq_some_iff] at h
  induction h with
  | nil => rfl
  | cons hfirst _ ih =>
    rw [List.contains_cons, List.any_cons, ih, eq_ofJson_of_labelValue hfirst]

/-! ## What the tree passes on -/

/-- The output of the first stop that lists the value, if there is a value. -/
def outputFor (value? : Option Value) (stops : List (Json × Json)) : Option Json :=
  value?.bind (fun value => (stops.find? (fun stop => lists stop.1 value)).map (·.2))

section Passed

variable {type : ValueType} {stops : List (Json × Json)} {branches : List (List Value × Expr)}

/-- The first stop that lists a value has become the first branch with a label that equals it. -/
theorem SpellBranches.find? (h : SpellBranches type (quotedOutputs (firstOfEach [] stops)) branches)
    (value : Value) :
    Option.Rel (fun stop branch => (quoted stop.2).Spells type branch.2)
      (stops.find? (fun stop => lists stop.1 value))
      (branches.find? (fun branch => branch.1.contains value)) := by
  rw [SpellBranches, quotedOutputs, List.forall₂_map_left_iff] at h
  rw [← find?_firstOfEach (fun hequal => lists_congr hequal value) [] (by simp)]
  exact List.Forall₂.find?
    (h.imp fun stop branch hbranch => ⟨(contains_labels hbranch.1 value).symm, hbranch.2⟩)

/-- No label is `null`. -/
theorem find?_contains_null (h : DistinctLabels (branches.map (·.1))) :
    branches.find? (fun branch => branch.1.contains .null) = none := by
  rw [List.find?_eq_none]
  intro branch hbranch hcontains
  rw [List.contains_eq_any_beq, List.any_eq_true] at hcontains
  obtain ⟨label, hlabel, hnull⟩ := hcontains
  have hscalar := h.scalar label
    (List.mem_flatten_of_mem (List.mem_map_of_mem (f := (·.1)) hbranch) hlabel)
  cases label <;> contradiction

/-- The tree passes on what the output of the stop spells, or else the fallback. -/
theorem spells_passed (hbranches : SpellBranches type (quotedOutputs (firstOfEach [] stops)) branches)
    (hlabelled : DistinctLabels (branches.map (·.1))) {fallback : Json} {otherwise : Expr}
    (hfallback : (quoted fallback).Spells type otherwise) (value? : Option Value) :
    (quoted ((outputFor value? stops).getD fallback)).Spells type
      (((branches.find? (fun branch => branch.1.contains (value?.getD .null))).map (·.2)).getD
        otherwise) := by
  cases value? with
  | none =>
    rw [Option.getD_none, find?_contains_null hlabelled]
    exact hfallback
  | some value =>
    have hfound := hbranches.find? value
    rw [Option.getD_some, outputFor, Option.bind_some]
    generalize stops.find? (fun stop => lists stop.1 value) = stop at hfound ⊢
    generalize branches.find? (fun branch => branch.1.contains value) = branch at hfound ⊢
    cases hfound with
    | none => exact hfallback
    | some hspells => exact hspells

end Passed

/-! ## Functions -/

/-- The output of a stop, or else the default of the function, or else that of the property; of
these the first that is there and not `null`. -/
def answer (spec : PropertySpec) (default output : Option Json) : Json :=
  ((output.filter (!·.isNull)).or ((default.filter (!·.isNull)).or spec.default?)).getD .null

/-- Falling back in the tree and falling back on its `null` amount to the same. -/
theorem answer_eq (spec : PropertySpec) (default output : Option Json) :
    let written := output.getD ((default.or spec.default).getD .null)
    answer spec default output =
      (if written.isNull then (default.filter (!·.isNull)).or spec.default?
        else some written).getD .null := by
  intro written
  cases output with
  | some output => cases hnull : output.isNull <;> simp [answer, written, Option.filter, hnull]
  | none =>
    cases default with
    | some default => cases hnull : default.isNull <;> simp [answer, written, Option.filter, hnull]
    | none =>
      cases hdefault : spec.default with
      | some default =>
        cases hnull : default.isNull <;>
          simp [answer, written, PropertySpec.default?, Option.filter, hdefault, hnull]
      | none => simp [answer, written, PropertySpec.default?, hdefault, Json.isNull]

/-- **A categorical function has the output of the first stop that lists the value of the
property**, for every feature, and never fails. Without such an output the default of the function
or that of the property steps in. -/
theorem categorical_output {spec : PropertySpec} {converted : Bool}
    {compiled : PropertyExpression} {members : List (String × Json)} {function : StopFunction}
    {name : String} {written : List (Json × Json)}
    (hread : read (.object members) spec = .ok function)
    (hcompile : PropertyExpression.compile function.expression spec
      { default := members.lookup "default", converted } = .ok compiled)
    (htype : members.lookup "type" = some (.string "categorical"))
    (hname : members.lookup "property" = some (.string name))
    (hstops : members.lookup "stops" = some (writtenStops written))
    (hplain : isComposite written = false) (context : Context) :
    ∃ value, compiled.evaluate context = .ok value ∧
      (answer spec (members.lookup "default")
        (outputFor (context.properties.lookup name) written)).Denotes spec.type value := by
  obtain ⟨branches, otherwise, hbranches, hlabelled, hfallback, hexpr⟩ :=
    exists_choice_of_compile hread hcompile htype hname hstops hplain
  -- the tree passes on a constant
  obtain ⟨value, hvalue, _, hpassed⟩ := spells_quoted.mp
    (spells_passed hbranches hlabelled hfallback (context.properties.lookup name))
  have heval : compiled.expr.eval context = .ok value := by
    rw [hexpr, Expr.eval_select, eval_propertyExpr, Except.bind, Context.propertyValue, hpassed]
    rfl
  refine ⟨compiled.orDefault value, PropertyExpression.evaluate_of_eval heval, ?_⟩
  rw [answer_eq]
  exact PropertyExpression.denotes_orDefault hcompile hvalue

/-- A stop whose input is an array counts for each of its items. -/
theorem categorical_output_array :
    ∃ function compiled, read (.object [("property", .string "class"),
        ("stops", writtenStops [(.array [.string "road", .string "path"], .string "a")]),
        ("type", .string "categorical")]) { kind := .string } = .ok function ∧
      PropertyExpression.compile function.expression { kind := .string } {} = .ok compiled ∧
      compiled.evaluate { feature := some { properties := [("class", .string "path")] } } =
        .ok (.string "a") := by
  obtain ⟨compiled, hcompile⟩ := Except.exists_of_isOk (x := PropertyExpression.compile
    (overProperty "class" (.categorical [(.array [.string "road", .string "path"], .string "a")]
      .null)).expression { kind := .string } {}) rfl
  have hread : read (.object [("property", .string "class"),
      ("stops", writtenStops [(.array [.string "road", .string "path"], .string "a")]),
      ("type", .string "categorical")]) { kind := .string } = .ok (overProperty "class"
        (.categorical [(.array [.string "road", .string "path"], .string "a")] .null)) := rfl
  refine ⟨_, compiled, hread, hcompile, ?_⟩
  obtain ⟨value, hevaluate, hvalue⟩ := categorical_output hread hcompile rfl rfl rfl rfl
    { feature := some { properties := [("class", .string "path")] } }
  change (Json.string "a").Denotes .string value at hvalue
  cases hvalue with
  | color wanted => contradiction
  | data => exact hevaluate

end Symbology.StopFunction
