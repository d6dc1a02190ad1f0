import Symbology.Proofs.Expr.Choice
import Symbology.Proofs.Expr.Curves
import Symbology.Proofs.StopFunction.Compiling

set_option autoImplicit false

/-! # What an interval function means

The output of an interval function is that of the last stop at or below its input, as the stops are
written; below all inputs it is the first output (`interval_output`). Between the stops and the
result lie the expression, which leaves out the first label and quotes arrays and objects, the
tree, in which texts have become colors, and the search through the labels of the tree. -/

namespace Symbology.StopFunction

/-! ## The stop that counts -/

/-- The input of the stop is a number at or below `x`. -/
def isAtOrBelow (x : Float) (stop : Json × Json) : Bool :=
  stop.1.number?.any (fun input => decide (input ≤ x))

/-- The last stop at or below `x`, and the first stop if there is none. -/
def stopAt (x : Float) (stops : List (Json × Json)) : Option (Json × Json) :=
  (stops.filter (isAtOrBelow x)).getLast?.or stops.head?

theorem stopAt_cons (x : Float) (first : Json × Json) (rest : List (Json × Json)) :
    stopAt x (first :: rest) = some ((rest.filter (isAtOrBelow x)).getLast?.getD first) := by
  rw [stopAt, List.head?_cons]
  by_cases hfirst : isAtOrBelow x first = true
  · rw [List.filter_cons_of_pos hfirst, List.getLast?_cons, Option.some_or]
  · rw [List.filter_cons_of_neg hfirst]
    cases (rest.filter (isAtOrBelow x)).getLast? <;> rfl

/-- Passing over stops whose labels ascend leads to the stop that counts. -/
theorem stopAt_writtenNumbers {x : Float} {first : NumericStop} {rest : List NumericStop}
    (hascending : (rest.map (·.1.toFloat)).Pairwise (· < ·)) :
    stopAt x (writtenNumbers (first :: rest)) =
      some (Outcome.stopBelow x (.number first.1, first.2)
        (rest.map (fun stop => (stop.1.toFloat, (.number stop.1, stop.2))))) := by
  rw [Outcome.stopBelow_eq_getLast (by rwa [List.map_map]), writtenNumbers, List.map_cons,
    stopAt_cons, List.filter_map, List.filter_map, List.map_map]
  rfl

/-- The output of the stop that counts spells the output that the tree passes on. -/
theorem spells_stopAt {type : ValueType} {x : Float} {first : NumericStop}
    {rest : List NumericStop} {output : Expr} {found : List (Float × Expr)}
    (hfirst : (quoted first.2).Spells type output)
    (hrest : SpellStops type (quotedOutputs rest) found)
    (hascending : (rest.map (·.1.toFloat)).Pairwise (· < ·)) :
    ∃ stop, stopAt x (writtenNumbers (first :: rest)) = some stop ∧
      (quoted stop.2).Spells type (Outcome.stopBelow x output found) := by
  refine ⟨_, stopAt_writtenNumbers hascending, ?_⟩
  refine Outcome.stopBelow_rel
    (R := fun (stop : Json × Json) (output : Expr) => (quoted stop.2).Spells type output) hfirst ?_
  rw [List.forall₂_map_left_iff]
  rwa [SpellStops, quotedOutputs, List.forall₂_map_left_iff] at hrest

/-! ## The input -/

/-- The input of a function of the zoom level or a property is `x`. -/
inductive InputIs (members : List (String × Json)) (context : Context) (x : Float) : Prop
  | zoom (unnamed : members.lookup "property" = none) (zoom : context.zoom = some x)
  | property {name : String} (named : members.lookup "property" = some (.string name))
      (value : context.propertyValue name = .number x)

/-- The tree of the input of a curve yields the input. -/
theorem stopInput_curveInput {members : List (String × Json)} {context : Context} {x : Float}
    {name : Option String} {input : Expr} {operator : StopOperator}
    (hinput : InputIs members context x) (hnan : x.isNaN = false)
    (hname : propertyName (members.lookup "property") = .ok name)
    (hspells : (curveInput name).Spells .number input) :
    Outcome.stopInput operator (input.eval context) = .ok x := by
  have heval : input.eval context = .ok (.number x) := by
    cases hinput with
    | zoom hunnamed hzoom =>
      rw [hunnamed] at hname
      obtain rfl := Except.ok.inj hname
      obtain rfl := spells_zoomLevel.mp hspells
      rw [Expr.eval, Context.zoomOutcome, hzoom]
    | @property name hnamed hvalue =>
      rw [hnamed] at hname
      obtain rfl := Except.ok.inj hname
      obtain rfl := spells_numericProperty.mp hspells
      have hproperty : (Typed.guard .number (propertyExpr name)).eval context =
        Outcome.assertion .number .value [.ok (context.propertyValue name)] := rfl
      rw [hproperty, hvalue]
      rfl
  exact Expr.stopInput_number operator heval hnan

/-! ## Functions -/

/-- **An interval function has the output of the last stop at or below its input**, or the first
output. The output is the value that it stands for; in place of `null` it is the default. -/
theorem interval_output {spec : PropertySpec} {options : CompileOptions}
    {compiled : PropertyExpression} {members : List (String × Json)} {function : StopFunction}
    {written : List (Json × Json)} {context : Context} {x : Float}
    (hread : read (.object members) spec = .ok function)
    (hcompile : PropertyExpression.compile function.expression spec options = .ok compiled)
    (htype : functionType spec (members.lookup "type") = .ok .interval)
    (hstops : members.lookup "stops" = some (writtenStops written))
    (hplain : isComposite written = false) (hinput : InputIs members context x)
    (hnan : x.isNaN = false) :
    ∃ stop value, stopAt x written = some stop ∧ stop.2.Denotes spec.type value ∧
      compiled.evaluate context = .ok (compiled.orDefault value) := by
  obtain ⟨name, settings, numeric, hname, hinterval, rfl, hne, hspells⟩ :=
    exists_curve_of_compile hread hcompile htype (by simp) hstops hplain
  have hcurve : settings.curve = .interval := by simp [Settings.curve, hinterval]
  rw [hcurve] at hspells
  cases numeric with
  | nil => exact absurd rfl hne
  | cons first rest =>
    obtain ⟨input, output, found, hin, hfirst, hrest, hascending, hexpr⟩ :=
      spells_interval.mp hspells
    -- the tree passes on the output of the stop that counts
    have hlabels : (rest.map (·.1.toFloat)).Pairwise (· < ·) := by
      rwa [List.map_map, List.isChain_iff_pairwise] at hascending
    obtain ⟨stop, hstop, hpassed⟩ := spells_stopAt (x := x) hfirst hrest hlabels
    obtain ⟨value, hvalue, _, hliteral⟩ := spells_quoted.mp hpassed
    have heval : compiled.expr.eval context = .ok value := by
      rw [hexpr, Expr.eval, Outcome.step, stopInput_curveInput hinput hnan hname hin, Except.bind,
        Expr.eval_stopBelow, hliteral]
      rfl
    exact ⟨stop, value, hstop, hvalue, PropertyExpression.evaluate_of_eval heval⟩

/-- An array as output stays an array. -/
theorem interval_output_array :
    ∃ function compiled, read (.object [("stops", writtenStops
        [(.number (.integer 5), .array [.bool true]), (.number (.integer 10), .null)])])
        { kind := .array } = .ok function ∧
      PropertyExpression.compile function.expression { kind := .array } {} = .ok compiled ∧
      compiled.evaluate { zoom := some 7 } = .ok (.array [.bool true]) := by
  obtain ⟨compiled, hcompile⟩ := Except.exists_of_isOk (x := PropertyExpression.compile
    (overZoom .interval [(.integer 5, .array [.bool true]), (.integer 10, .null)]).expression
    { kind := .array } {}) rfl
  have hread : read (.object [("stops", writtenStops
      [(.number (.integer 5), .array [.bool true]), (.number (.integer 10), .null)])])
      { kind := .array } =
      .ok (overZoom .interval [(.integer 5, .array [.bool true]), (.integer 10, .null)]) := rfl
  have hinput : InputIs [("stops", writtenStops
      [(.number (.integer 5), .array [.bool true]), (.number (.integer 10), .null)])]
      { zoom := some 7 } 7 := .zoom rfl rfl
  refine ⟨_, compiled, hread, hcompile, ?_⟩
  obtain ⟨stop, value, hstop, hvalue, hevaluate⟩ :=
    interval_output hread hcompile rfl rfl rfl hinput (by decide)
  have hfirst : stopAt 7 [(.number (.integer 5), .array [.bool true]),
    (.number (.integer 10), .null)] = some (.number (.integer 5), .array [.bool true]) := rfl
  obtain rfl := Option.some.inj (hstop.symm.trans hfirst)
  cases hvalue
  exact hevaluate

end Symbology.StopFunction
