import Symbology.Proofs.Refusals

set_option autoImplicit false

/-! # Where errors point to

The place of an error is found by going down from the root, each time from an array to the item at a
position. Every error of the checker leads to a part of the expression in this way, and every other
error of compiling stands at the root or at the default (`Json.place_of_error`). Operators place
their errors at the whole or at an argument (`Typing.Form.Raised`), so all that matters is that
arguments know their positions. -/

namespace Symbology

/-! ## Parts of a value -/

/-- The part of a value that is reached by the positions of a path, each one in an array. -/
def Json.part? : Json → List Nat → Option Json
  | json, [] => some json
  | json, index :: path => (json.array?.bind (·[index]?)).bind (fun item => item.part? path)

/-- The error stands at a part of the value. -/
def CompileError.PointsInto (json : Json) (e : CompileError) : Prop :=
  ∃ path, e.place = .node path ∧ (json.part? path).isSome = true

namespace CompileError

theorem pointsInto_here (json : Json) (cause : Cause) : (here cause).PointsInto json :=
  ⟨[], rfl, rfl⟩

/-- An error of an item stands at a part of the array. -/
theorem PointsInto.inside {items : List Json} {item : Json} {index : Nat} {e : CompileError}
    (h : e.PointsInto item) (hitem : items[index]? = some item) :
    (e.inside index).PointsInto (.array items) := by
  obtain ⟨path, hplace, hpart⟩ := h
  refine ⟨index :: path, ?_, ?_⟩
  · rw [CompileError.inside, hplace]
  · rw [Json.part?, Json.array?, Option.bind_some, hitem]
    exact hpart

/-- The operator stands at the head of the call. -/
theorem pointsInto_head {head : Json} {args : List Json} (cause : Cause) :
    ((here cause).inside 0).PointsInto (.array (head :: args)) :=
  (pointsInto_here head cause).inside rfl

end CompileError

/-- An argument is the item of the call at its position. -/
theorem Json.getElem?_of_mem_operands {head : Json} {args : List Json} {o : Operand}
    (h : o ∈ operands 1 args) : (head :: args)[o.index]? = some o.json := by
  have hindex : ∀ (args : List Json) (index : Nat), o ∈ operands index args →
      ∃ n, o.index = index + n ∧ args[n]? = some o.json := by
    intro args
    induction args with
    | nil => exact fun _ ho => absurd ho List.not_mem_nil
    | cons json rest ih =>
      intro index ho
      rcases List.mem_cons.mp ho with rfl | hrest
      · exact ⟨0, rfl, rfl⟩
      · obtain ⟨n, hn, hitem⟩ := ih (index + 1) hrest
        exact ⟨n + 1, by omega, hitem⟩
  obtain ⟨n, hn, hitem⟩ := hindex args 1 h
  rw [hn, Nat.add_comm, List.getElem?_cons_succ, hitem]

/-! ## Operators -/

namespace Typing

/-- Every operator has a form. -/
theorem exists_form_of_rule {name : String} {rule : Rule} (h : rule? name = some rule) :
    ∃ form, Rule.Raises rule form := by
  have hrel := operators_raise.lookup name
  rw [show operators.lookup name = some rule from h] at hrel
  generalize forms.lookup name = found at hrel
  cases hrel with
  | some hraises => exact ⟨_, hraises⟩

/-- The errors of an operator stand at the call, at an argument, or where the argument has them. -/
theorem Form.Raised.pointsInto {form : Form} {head : Json} {args : List Json} {e : CompileError}
    (h : form.Raised (Json.operands 1 args) e)
    (hargs : ∀ arg ∈ args, ∀ {expected e}, arg.infer expected = .error e → e.PointsInto arg) :
    e.PointsInto (.array (head :: args)) := by
  cases h with
  | whole => exact CompileError.pointsInto_here _ _
  | argument member =>
    exact (CompileError.pointsInto_here _ _).inside (Json.getElem?_of_mem_operands member)
  | unfit place =>
    exact (CompileError.pointsInto_here _ _).inside
      (Json.getElem?_of_mem_operands (Form.mem_of_mem_placed place))
  | @inherited o expected e place refused =>
    have ho := Form.mem_of_mem_placed place
    have hmem : o.json ∈ args := by
      rw [← Json.map_json_operands 1 args]
      exact List.mem_map_of_mem ho
    rw [Json.infer_of_mem_operands ho] at refused
    exact (hargs o.json hmem refused).inside (Json.getElem?_of_mem_operands ho)

end Typing

/-! ## The checker -/

namespace Json

theorem pointsInto_of_constant {json : Json} {expected : Option ValueType} {value : Value}
    {e : CompileError} (h : Typed.constant expected value = .error e) : e.PointsInto json := by
  obtain ⟨error, rfl⟩ := Typed.constant_eq_error h
  exact CompileError.pointsInto_here json _

theorem pointsInto_of_infer_eq_error : ∀ (json : Json) {expected : Option ValueType}
    {e : CompileError}, json.infer expected = .error e → e.PointsInto json
  | .null, _, _, h | .bool _, _, _, h | .number _, _, _, h | .string _, _, _, h =>
    pointsInto_of_constant h
  | .object _, _, _, h | .array [], _, _, h => by
    obtain rfl := Except.error.inj h
    exact CompileError.pointsInto_here _ _
  | .array (head :: args), expected, e, h => by
    have hargs : ∀ arg ∈ args, ∀ {expected e}, arg.infer expected = .error e → e.PointsInto arg :=
      fun arg _ _ _ harg => pointsInto_of_infer_eq_error arg harg
    rw [infer] at h
    unfold Typing.apply at h
    split at h
    · split at h
      next rule hrule =>
        obtain ⟨form, hraises⟩ := Typing.exists_form_of_rule hrule
        exact (hraises _ _ _ h).pointsInto hargs
      next =>
        obtain rfl := Except.error.inj h
        exact CompileError.pointsInto_head _
    next =>
      obtain rfl := Except.error.inj h
      exact CompileError.pointsInto_head _
termination_by json => sizeOf json
decreasing_by
  have hsize := List.sizeOf_lt_of_mem ‹_ ∈ args›
  simp only [array.sizeOf_spec, List.cons.sizeOf_spec]
  omega

/-- Every error of the checker stands at a part of the expression. -/
theorem pointsInto_of_check_eq_error {json : Json} {expected : Option ValueType} {e : CompileError}
    (h : json.check expected = .error e) : e.PointsInto json := by
  rcases Except.bind_eq_error_iff.mp h with hinfer | ⟨typed, _, hfit⟩
  · exact pointsInto_of_infer_eq_error json hinfer
  · obtain ⟨wanted, actual, rfl⟩ := Typed.reconcile_eq_error hfit
    exact CompileError.pointsInto_here json _

end Json

/-- What the property does not allow is told of the whole expression. -/
theorem PropertyExpression.exists_here_of_allowed {spec : PropertySpec} {expr : Expr}
    {e : CompileError} (h : allowed spec expr = .error e) : ∃ cause, e = .here cause := by
  unfold allowed at h
  split at h
  · exact ⟨_, (Except.error.inj h).symm⟩
  · split at h
    · exact ⟨_, (Except.error.inj h).symm⟩
    · split at h
      · exact ⟨_, (Except.error.inj h).symm⟩
      · contradiction

/-! ## The text of a place -/

/-- The text of a path: the positions, each in brackets. -/
def CompileError.pathText (path : List Nat) : String :=
  "$" ++ String.join (path.map (fun index => "[" ++ toString index ++ "]"))

theorem CompileError.text_node (path : List Nat) : (Place.node path).text = pathText path := by
  have hfold : ∀ (path : List Nat) (start : String),
      path.foldl (fun text index => text ++ "[" ++ toString index ++ "]") start =
        start ++ String.join (path.map (fun index => "[" ++ toString index ++ "]")) := by
    intro path
    induction path with
    | nil => intro start; simp
    | cons index rest ih =>
      intro start
      rw [List.foldl_cons, ih, List.map_cons, String.join_cons]
      simp only [String.append_assoc]
  exact hfold path "$"

theorem CompileError.PointsInto.exists_text {json : Json} {e : CompileError}
    (h : e.PointsInto json) :
    ∃ path, e.place.text = pathText path ∧ (json.part? path).isSome = true := by
  obtain ⟨path, hplace, hpart⟩ := h
  exact ⟨path, by rw [hplace, text_node], hpart⟩

/-- **Errors point into the expression.** The place of an error of the checker is written as a path
that leads to a part of the expression, and so is that of an error of compiling, unless it is the
default. -/
theorem Json.place_of_error (json : Json) :
    (∀ expected e, json.check expected = .error e →
      ∃ path, e.place.text = CompileError.pathText path ∧ (json.part? path).isSome = true) ∧
    ∀ spec options e, PropertyExpression.compile json spec options = .error e →
      (∃ path, e.place.text = CompileError.pathText path ∧ (json.part? path).isSome = true) ∨
        e.place.text = "default" := by
  refine ⟨fun expected e h => (pointsInto_of_check_eq_error h).exists_text,
    fun spec options e h => ?_⟩
  rcases PropertyExpression.compile_eq_error h with hcheck | ⟨typed, _, hallowed⟩ | hdefault
  · exact Or.inl (pointsInto_of_check_eq_error hcheck).exists_text
  · obtain ⟨cause, rfl⟩ := PropertyExpression.exists_here_of_allowed hallowed
    exact Or.inl (CompileError.pointsInto_here json cause).exists_text
  · exact Or.inr (by rw [hdefault]; rfl)

/-- A text where a number is wanted, two calls deep; a zoom level where none is allowed; and a
default that is no number, whose place is not a path. -/
theorem Json.place_of_error_sum :
    let sum : Json := .array [.string "+", .number (.integer 1),
      .array [.string "-", .string "x"]]
    let zoom : Json := .array [.string "zoom"]
    let one : Json := .number (.integer 1)
    let atText : CompileError := ⟨.node [2, 1], .typeMismatch .number .string⟩
    let atZoom : CompileError := ⟨.node [], .zoomDependent⟩
    let atDefault : CompileError := ⟨.default, .typeMismatch .number .string⟩
    (sum.check (some .number) = .error atText ∧
      ∃ path, atText.place.text = CompileError.pathText path ∧
        (sum.part? path).isSome = true) ∧
    (PropertyExpression.compile zoom { kind := .number, zoomDependent := false } {} =
        .error atZoom ∧
      ∃ path, atZoom.place.text = CompileError.pathText path ∧
        (zoom.part? path).isSome = true) ∧
    (PropertyExpression.compile one { kind := .number, default := some (.string "x") } {} =
        .error atDefault ∧
      (¬∃ path, atDefault.place.text = CompileError.pathText path ∧
        (one.part? path).isSome = true) ∧
      atDefault.place.text = "default") := by
  intro sum zoom one atText atZoom atDefault
  have hsum : sum.check (some .number) = .error atText := rfl
  have hzoom : PropertyExpression.compile zoom { kind := .number, zoomDependent := false } {} =
      .error atZoom := rfl
  have hone : PropertyExpression.compile one { kind := .number, default := some (.string "x") } {} =
      .error atDefault := rfl
  have hpath : ¬∃ path, atDefault.place.text = CompileError.pathText path ∧
      (one.part? path).isSome = true := by
    rintro ⟨_ | ⟨index, path⟩, hplace, hpart⟩
    · exact absurd hplace (by decide)
    · exact absurd hpart (by simp [one, part?, array?])
  exact ⟨⟨hsum, (place_of_error sum).1 _ _ hsum⟩,
    ⟨hzoom, ((place_of_error zoom).2 _ _ _ hzoom).resolve_right (by decide)⟩,
    hone, hpath, ((place_of_error one).2 _ _ _ hone).resolve_left hpath⟩

end Symbology
