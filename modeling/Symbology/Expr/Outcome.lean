import Symbology.Color.Reader
import Symbology.Context
import Symbology.Expr.Basic
import Symbology.Value.Text

set_option autoImplicit false

/-! # Outcomes

The outcome of an expression is a value or the reason why there is none. What an operator makes of
the outcomes of its arguments is stated here, without regard to the expressions they come from.
Arguments are looked at from left to right and no further than needed, so the error of an argument
counts only when that argument is looked at. -/

namespace Symbology

/-! ## Errors -/

/-- An operator that finds its output among stops. -/
inductive StopOperator where
  | step
  | interpolate
deriving DecidableEq, Repr

/-- The name of the operator, as the author writes it. -/
def StopOperator.name : StopOperator → String
  | .step => "step"
  | .interpolate => "interpolate"

/-- Why an expression has no value. -/
inductive EvalError where
  /-- A value has another type than the one that is needed. -/
  | typeMismatch (expected actual : ValueType)
  /-- The zoom level is asked for and there is none. -/
  | missingZoom
  | notColor (value : Value)
  | notNumber (value : Value)
  | notComparable (left right : ValueType)
  /-- The input of an operator with stops is not a number. -/
  | nanInput (operator : StopOperator)
  /-- An operation on numbers does not take so many of them. -/
  | operandCount (operation : Arithmetic) (found : Nat)
  /-- A color does not have so many channels. -/
  | channelCount (channels : List Float)
  | channelRange (red green blue alpha : Float)
  | alphaRange (red green blue alpha : Float)

namespace EvalError

/-- The kinds of errors. -/
inductive Kind where
  /-- A value has the wrong type. -/
  | typeMismatch
  /-- The zoom level is missing. -/
  | missingZoom
  | invalidColor
  /-- An argument is outside of what the operator is defined on. -/
  | invalidArgument
deriving DecidableEq, Repr

/-- The kind of an error, for those who do not care for its details. -/
def kind : EvalError → Kind
  | .typeMismatch .. => .typeMismatch
  | .missingZoom => .missingZoom
  | .notColor _ => .invalidColor
  | _ => .invalidArgument

/-- Channels of a color between brackets. -/
def channelsText (style : DecimalStyle) (channels : List Float) : String :=
  "[" ++ ", ".intercalate (channels.map (fun x => String.ofList (style.ofFloat x))) ++ "]"

/-- What the author is told about an error. -/
def message : EvalError → String
  | .typeMismatch expected actual =>
    "Expected value to be of type " ++ expected.text ++ ", but found " ++ actual.text ++
      " instead."
  | .missingZoom =>
    "The \"zoom\" expression requires a zoom level, but none was provided."
  | .notColor value => "Could not parse color from value '" ++ value.text ++ "'"
  | .notNumber value => "Could not convert " ++ value.toJson.compact ++ " to number."
  | .notComparable left right =>
    "Expected arguments of the same comparable type, but found " ++ left.text ++ " and " ++
      right.text ++ " instead."
  | .nanInput operator =>
    "Input to \"" ++ operator.name ++ "\" must be a number, but found NaN."
  | .operandCount operation found =>
    "Wrong number of arguments for " ++ operation.name ++ ": " ++ toString found
  | .channelCount channels =>
    "Invalid rgba value " ++ channelsText .diagnostic channels ++
      ": expected an array containing either three or four numeric values."
  | .channelRange red green blue alpha =>
    "Invalid rgba value " ++ channelsText .plain [red, green, blue, alpha] ++
      ": 'r', 'g', and 'b' must be between 0 and 255."
  | .alphaRange red green blue alpha =>
    "Invalid rgba value " ++ channelsText .plain [red, green, blue, alpha] ++
      ": 'a' must be between 0 and 1."

end EvalError

/-- What an expression yields: a value, or the reason why there is none. -/
abbrev Outcome := Except EvalError Value

namespace Value

/-! ## Values of a needed type -/

/-- The number of a value that has to be one. Nothing is converted. -/
def needNumber : Value → Except EvalError Float
  | .number x => .ok x
  | value => .error (.typeMismatch .number value.type)

/-- The string of a value that has to be one. Nothing is converted. -/
def needString : Value → Except EvalError String
  | .string s => .ok s
  | value => .error (.typeMismatch .string value.type)

/-- The truth value of a value that has to be one. -/
def needBool : Value → Except EvalError Bool
  | .bool b => .ok b
  | value => .error (.typeMismatch .boolean value.type)

/-! ## Conversions of a value -/

/-- The color with three or four channels: red, green and blue from 0 to 255, alpha from 0 to 1. -/
def colorOfChannels : List Float → Except EvalError Color
  | [r, g, b] => build r g b 1
  | [r, g, b, a] => build r g b a
  | channels => .error (.channelCount channels)
where
  /-- The color with four channels. -/
  build (r g b a : Float) : Except EvalError Color :=
    if [r, g, b].any (fun c => !(decide (0 ≤ c) && decide (c ≤ 255))) then
      .error (.channelRange r g b a)
    else if !(decide (0 ≤ a) && decide (a ≤ 1)) then .error (.alphaRange r g b a)
    else .ok ⟨Number.narrow (r / 255), Number.narrow (g / 255), Number.narrow (b / 255),
      Number.narrow a⟩

/-- The color that a value stands for: a color, the text of one, or an array of channels. -/
def asColor? : Value → Option Color
  | .color c => some c
  | .string s => (Color.read s).toOption
  | .array items => (items.mapM number?).bind (fun channels => (colorOfChannels channels).toOption)
  | _ => none

/-- Behind its signs the text begins with a digit or a point and has only characters of numerals. -/
def looksNumeric (text : List Char) : Bool :=
  let unsigned := text.dropWhile Numeral.isSign
  unsigned.all Numeral.isNumeric && unsigned.head?.any (fun c => c.isDigit || c == '.')

/-- The number that a text with blanks around it spells. Words for numbers are refused, and a blank
text is zero. -/
def numberOfText? (s : String) : Option Float :=
  let text := Text.trim s.toList
  if text.isEmpty then some 0
  else if looksNumeric text then Number.double? text
  else none

/-- The number that a value converts to: `null` is zero, truth values are zero and one, and a text
is read. -/
def asNumber? : Value → Option Float
  | .null => some 0
  | .bool b => some (if b then 1 else 0)
  | .number x => some x
  | .string s => numberOfText? s
  | _ => none

/-- The truth value that a value converts to: `null`, zero, "not a number" and the empty text are
false, and everything else is true. -/
def asBool : Value → Bool
  | .null => false
  | .bool b => b
  | .number x => x != 0 && !x.isNaN
  | .string s => s != ""
  | _ => true

/-! ## Blending -/

mutual

/-- The value that lies at `t` on the way from one value to another: numbers, colors, and arrays of
the same length item by item. -/
def blend (t : Float) : Value → Value → Outcome
  | .number a, .number b => .ok (.number (a + (b - a) * t))
  | .color a, .color b => .ok (.color (a.blend b (Number.narrow t)))
  | .array as, .array bs =>
    if as.length = bs.length then (blendItems t as bs).map .array
    else .error (.typeMismatch (type (.array as)) (type (.array bs)))
  | a, b => .error (.typeMismatch a.type b.type)

/-- The values on the way between the items of two arrays, up to the first that fail to blend. -/
def blendItems (t : Float) : List Value → List Value → Except EvalError (List Value)
  | a :: as, b :: bs =>
    match blend t a b with
    | .error e => .error e
    | .ok value => (blendItems t as bs).map (value :: ·)
  | _, _ => .ok []

end

end Value

namespace Outcome

/-! ## Numbers and truth values -/

/-- The numbers of outcomes that all have to be numbers, or the first error from the left. -/
def numbers (args : List Outcome) : Except EvalError (List Float) :=
  args.mapM (fun arg => arg.bind Value.needNumber)

/-- An operation on the numbers of its arguments. -/
def arithmetic (operation : Arithmetic) (args : List Outcome) : Outcome :=
  (numbers args).bind (fun xs =>
    match operation, xs with
    -- negative zero is the one number that every other is left unchanged by
    | .add, xs => .ok (.number (xs.foldl (· + ·) (-0.0)))
    | .multiply, xs => .ok (.number (xs.foldl (· * ·) 1))
    | .subtract, [x] => .ok (.number (-x))
    | .subtract, [x, y] => .ok (.number (x - y))
    | .divide, [x, y] => .ok (.number (x / y))
    | .remainder, [x, y] => .ok (.number (Number.remainder x y))
    | .power, [x, y] => .ok (.number (Number.power x y))
    | _, xs => .error (.operandCount operation xs.length))

/-- Two numbers stand in an order; nothing does with "not a number". -/
def numbersOrdered : Ordered → Float → Float → Bool
  | .less, x, y => x < y
  | .lessEqual, x, y => x ≤ y
  | .greater, x, y => y < x
  | .greaterEqual, x, y => y ≤ x

/-- Two strings stand in an order, by their code points. -/
def stringsOrdered : Ordered → String → String → Bool
  | .less, s, t => s < t
  | .lessEqual, s, t => !decide (t < s)
  | .greater, s, t => t < s
  | .greaterEqual, s, t => !decide (s < t)

/-- Whether two values stand in a relation. Values of all types are equal or not; only two numbers
or two strings have an order. -/
def related (relation : Comparison) (left right : Value) : Except EvalError Bool :=
  match relation with
  | .equal => .ok (left == right)
  | .notEqual => .ok (!(left == right))
  | .ordered order =>
    match left, right with
    | .number x, .number y => .ok (numbersOrdered order x y)
    | .string s, .string t => .ok (stringsOrdered order s t)
    | _, _ => .error (.notComparable left.type right.type)

/-- A comparison of two outcomes. An error on the left comes before one on the right. -/
def comparison (relation : Comparison) (left right : Outcome) : Outcome :=
  left.bind (fun l => right.bind (fun r => (related relation l r).map .bool))

/-- The opposite of an outcome that has to be a truth value. -/
def not (arg : Outcome) : Outcome :=
  (arg.bind Value.needBool).map (fun b => .bool (!b))

/-- Whether all outcomes are true, up to the first that is not. -/
def all : List Outcome → Outcome
  | [] => .ok (.bool true)
  | arg :: rest =>
    (arg.bind Value.needBool).bind (fun b => if b then all rest else .ok (.bool false))

/-- Whether one of the outcomes is true, up to the first that is. -/
def any : List Outcome → Outcome
  | [] => .ok (.bool false)
  | arg :: rest =>
    (arg.bind Value.needBool).bind (fun b => if b then .ok (.bool true) else any rest)

/-! ## Choices -/

/-- The output of the first branch whose condition is true. -/
def case : List (Outcome × Outcome) → Outcome → Outcome
  | [], otherwise => otherwise
  | (condition, output) :: rest, otherwise =>
    (condition.bind Value.needBool).bind (fun b => if b then output else case rest otherwise)

/-- The output of the first branch with a label that equals the input. -/
def select (input : Outcome) (branches : List (List Value × Outcome)) (otherwise : Outcome) :
    Outcome :=
  input.bind (fun value =>
    match branches.find? (fun branch => branch.1.contains value) with
    | some branch => branch.2
    | none => otherwise)

/-- The first outcome that is not `null`, which may be an error, and `null` if there is none. -/
def coalesce : List Outcome → Outcome
  | [] => .ok .null
  | arg :: rest => arg.bind (fun value => if value.isNull then coalesce rest else .ok value)

/-- The first outcome of the type `target`. `last` is the type of the outcome before. -/
def assertion (target : ValueType) (last : ValueType) : List Outcome → Outcome
  | [] => .error (.typeMismatch target last)
  | arg :: rest =>
    arg.bind (fun value =>
      if target.accepts value.type then .ok value else assertion target value.type rest)

/-- The first outcome that `convert?` accepts, after conversion. `last` is the outcome before. -/
def firstConverted (convert? : Value → Option Value) (failure : Value → EvalError) (last : Value) :
    List Outcome → Outcome
  | [] => .error (failure last)
  | arg :: rest =>
    arg.bind (fun value =>
      match convert? value with
      | some converted => .ok converted
      | none => firstConverted convert? failure value rest)

/-- The first of the outcomes, and `null` if there are none. -/
def first : List Outcome → Outcome
  | [] => .ok .null
  | arg :: _ => arg

/-- The first outcome that can be converted, after conversion. -/
def conversion (target : Conversion) (args : List Outcome) : Outcome :=
  match target with
  | .color => firstConverted (fun value => value.asColor?.map .color) .notColor .null args
  | .number => firstConverted (fun value => value.asNumber?.map .number) .notNumber .null args
  | .boolean => (first args).map (fun value => .bool value.asBool)
  | .string => (first args).map (fun value => .string value.text)

/-- The color with the given channels, all of which have to be numbers. -/
def rgba (args : List Outcome) : Outcome :=
  (numbers args).bind (fun channels => (Value.colorOfChannels channels).map .color)

/-! ## Stops -/

/-- The input of an operator with stops: a number, but not "not a number". -/
def stopInput (operator : StopOperator) (input : Outcome) : Except EvalError Float :=
  (input.bind Value.needNumber).bind (fun x =>
    if x.isNaN then .error (.nanInput operator) else .ok x)

/-- The output of the last stop at or below `x`, and `first` if there is none. -/
def stopBelow {α : Type} (x : Float) (first : α) : List (Float × α) → α
  | [] => first
  | (label, output) :: rest => if label ≤ x then stopBelow x output rest else first

/-- The output of the last stop at or below the input. -/
def step (input first : Outcome) (stops : List (Float × Outcome)) : Outcome :=
  (stopInput .step input).bind (fun x => stopBelow x first stops)

/-- The outcome at `x`, which is above the label `lower`: between the first two stops with `x`
below the upper one, and at the last stop if all are at or below `x`. -/
def between (interpolation : Interpolation) (x lower : Float) (output : Outcome) :
    List (Float × Outcome) → Outcome
  | [] => output
  | (upper, next) :: rest =>
    if upper ≤ x then between interpolation x upper next rest
    else output.bind (fun a => next.bind (fun b =>
      Value.blend (interpolation.factor x lower upper) a b))

/-- The output between the two stops around the input; outside of the stops it is the output of the
nearest one. -/
def interpolate (interpolation : Interpolation) (input : Outcome)
    (stops : List (Float × Outcome)) : Outcome :=
  (stopInput .interpolate input).bind (fun x =>
    match stops with
    | [] => .ok .null
    | (label, output) :: rest =>
      if x ≤ label then output else between interpolation x label output rest)

end Outcome

end Symbology
