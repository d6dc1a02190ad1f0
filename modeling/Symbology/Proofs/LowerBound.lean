import Symbology.Declaration
import Symbology.Proofs.Except

set_option autoImplicit false

/-! # The lower bound of a property

The lower bound is looked at when a declaration is evaluated and nowhere else. With a bound and
without one, the same values are read and refused by the compiler
(`PropertyExpression.compile_withMinimum`), by the reader of stop functions
(`StopFunction.read_withMinimum`) and so by the reader of values (`PropertyValue.read_withMinimum`).
Two declarations that differ in the bound alone have the same outcomes, but for numbers below the
bound (`Declaration.minimum_only_raises`). -/

namespace Symbology

variable {spec : PropertySpec} {minimum : Option Float}

/-- The property with another lower bound, or with none. -/
def PropertySpec.withMinimum (spec : PropertySpec) (minimum : Option Float) : PropertySpec :=
  { spec with minimum }

/-! ## What is read -/

namespace PropertySpec

@[simp]
theorem kind_withMinimum : (spec.withMinimum minimum).kind = spec.kind :=
  rfl

@[simp]
theorem default_withMinimum : (spec.withMinimum minimum).default = spec.default :=
  rfl

@[simp]
theorem type_withMinimum : (spec.withMinimum minimum).type = spec.type :=
  rfl

@[simp]
theorem isInterpolated_withMinimum :
    (spec.withMinimum minimum).isInterpolated = spec.isInterpolated :=
  rfl

end PropertySpec

namespace PropertyExpression

@[simp]
theorem allowed_withMinimum (expr : Expr) :
    allowed (spec.withMinimum minimum) expr = allowed spec expr :=
  rfl

@[simp]
theorem chosenDefault_withMinimum (options : CompileOptions) :
    chosenDefault (spec.withMinimum minimum) options = chosenDefault spec options :=
  rfl

/-- **The compiler does not look at the lower bound.** -/
@[simp]
theorem compile_withMinimum (json : Json) (options : CompileOptions) :
    compile json (spec.withMinimum minimum) options = compile json spec options := by
  simp only [compile, PropertySpec.type_withMinimum, allowed_withMinimum,
    chosenDefault_withMinimum]

end PropertyExpression

namespace StopFunction

@[simp]
theorem functionType_withMinimum (written : Option Json) :
    functionType (spec.withMinimum minimum) written = functionType spec written := by
  cases written with
  | none => rw [functionType, PropertySpec.isInterpolated_withMinimum, functionType]
  | some json => rfl

@[simp]
theorem outerCurve_withMinimum (settings : Settings) :
    settings.outerCurve (spec.withMinimum minimum) = settings.outerCurve spec :=
  rfl

@[simp]
theorem ofStops_withMinimum (settings : Settings) (stops : List (Json × Json))
    (name : Option String) :
    ofStops (spec.withMinimum minimum) settings stops name = ofStops spec settings stops name := by
  cases name with
  | none => rfl
  | some name => simp only [ofStops, outerCurve_withMinimum]

/-- **The reader of stop functions does not look at the lower bound.** -/
@[simp]
theorem read_withMinimum (json : Json) : read json (spec.withMinimum minimum) = read json spec := by
  cases json with
  | object members =>
    simp only [read, ofMembers, functionType_withMinimum, ofStops_withMinimum,
      PropertySpec.isInterpolated_withMinimum, PropertySpec.kind_withMinimum,
      PropertySpec.default_withMinimum]
  | _ => rfl

end StopFunction

@[simp]
theorem Shape.classify_withMinimum (json : Json) :
    classify (spec.withMinimum minimum) json = classify spec json := by
  cases json with
  | string text => rw [classify, PropertySpec.kind_withMinimum, classify]
  | _ => rfl

/-- **However it is written, a value is read without a look at the lower bound.** -/
@[simp]
theorem PropertyValue.read_withMinimum (json : Json) :
    read (spec.withMinimum minimum) json = read spec json := by
  simp only [read, ofExpression, ofStopFunction, Shape.classify_withMinimum,
    PropertyExpression.compile_withMinimum, StopFunction.read_withMinimum]

/-! ## Declarations -/

namespace Declaration

/-- A declaration keeps the lower bound beside the value that is read. -/
theorem read_withMinimum (json : Json) :
    read (spec.withMinimum minimum) json =
      (PropertyValue.read spec json).map (fun value =>
        ⟨json, Shape.classify spec json, minimum, value⟩) := by
  rw [read, PropertyValue.read_withMinimum, Shape.classify_withMinimum]
  rfl

/-- A number below the bound is raised to it. -/
theorem raise_of_lt {x bound : Float} (h : x < bound) :
    raise (some bound) (.number x) = .number bound :=
  if_pos h

/-- All other values stay as they are. -/
theorem raise_of_not_lt {bound : Float} {value : Value} (h : ∀ x, value = .number x → ¬x < bound) :
    raise (some bound) value = value := by
  cases value with
  | number x => exact if_neg (h x rfl)
  | _ => rfl

/-- The numbers in an array are not raised. -/
example : raise (some 0) (.array [.number (-1), .number 2]) = .array [.number (-1), .number 2] :=
  rfl

/-- Without a bound there is nothing to raise. -/
theorem raise_none (value : Value) : raise none value = value := by
  cases value <;> rfl

/-- Two declarations differ in nothing but that one of them has a lower bound: what is written and
how, what the value depends on and how it changes with the zoom level are the same, and so is each
outcome that is not a number below the bound. -/
structure OnlyRaises (bound : Float) (bounded free : Declaration) : Prop where
  shape : bounded.shape = free.shape
  holdsExpression : bounded.holdsExpression = free.holdsExpression
  canonicalText : bounded.canonicalText = free.canonicalText
  featureConstant : bounded.value.isFeatureConstant = free.value.isFeatureConstant
  zoomConstant : bounded.value.isZoomConstant = free.value.isZoomConstant
  zoomCurve : bounded.value.zoomCurve? = free.value.zoomCurve?
  factor : ∀ zoom lower upper, bounded.factor zoom lower upper = free.factor zoom lower upper
  raised : ∀ context x, free.evaluate context = .ok (.number x) → x < bound →
    bounded.evaluate context = .ok (.number bound)
  kept : ∀ context, (∀ x, free.evaluate context = .ok (.number x) → ¬x < bound) →
    bounded.evaluate context = free.evaluate context

/-- Without a bound, the outcome is that of the value. -/
theorem evaluate_free (json : Json) (shape : Shape) (value : PropertyValue) (context : Context) :
    evaluate ⟨json, shape, none, value⟩ context = value.evaluate context := by
  rw [evaluate]
  cases value.evaluate context with
  | error e => rfl
  | ok result => exact congrArg Except.ok (raise_none result)

/-- **The bound comes last**: it is put on what the whole of the evaluation yields, so on defaults
too. -/
theorem onlyRaises (json : Json) (shape : Shape) (bound : Float) (value : PropertyValue) :
    OnlyRaises bound ⟨json, shape, some bound, value⟩ ⟨json, shape, none, value⟩ where
  shape := rfl
  holdsExpression := rfl
  canonicalText := rfl
  featureConstant := rfl
  zoomConstant := rfl
  zoomCurve := rfl
  factor _ _ _ := rfl
  raised context x hfree hlt := by
    rw [evaluate_free] at hfree
    rw [evaluate, hfree]
    exact congrArg Except.ok (raise_of_lt hlt)
  kept context hfree := by
    rw [evaluate_free] at hfree ⊢
    rw [evaluate]
    cases houtcome : value.evaluate context with
    | error e => rfl
    | ok result =>
      refine congrArg Except.ok (raise_of_not_lt (fun x hx => hfree x ?_))
      rw [houtcome, hx]

/-- **The lower bound does nothing but raise numbers.** A property with a bound and the same
property without one refuse the same values with the same errors. Where they accept a value, the two
declarations differ in the outcomes that are numbers below the bound; there the outcome is the
bound. -/
theorem minimum_only_raises (spec : PropertySpec) (bound : Float) (json : Json) :
    (∃ e, read (spec.withMinimum (some bound)) json = .error e ∧
      read (spec.withMinimum none) json = .error e) ∨
    ∃ bounded free, read (spec.withMinimum (some bound)) json = .ok bounded ∧
      read (spec.withMinimum none) json = .ok free ∧ OnlyRaises bound bounded free := by
  simp only [read_withMinimum]
  cases PropertyValue.read spec json with
  | error e => exact Or.inl ⟨e, rfl, rfl⟩
  | ok value => exact Or.inr ⟨_, _, rfl, rfl, onlyRaises json _ bound value⟩

end Declaration

end Symbology
