import Symbology.Color.Hsl
import Symbology.Color.Names
import Symbology.Number.Spelling
import Symbology.Text.Blank
import Symbology.Text.Quoted

set_option autoImplicit false

/-! # Reading colors

An author writes a color in hexadecimal digits (`#rgb`, `#rgba`, `#rrggbb`, `#rrggbbaa`), as a
function of its channels (`rgb`, `rgba`, `hsl`, `hsla`) or by name. Case does not matter, nor do
blanks around the text. Arguments of a function are separated by commas, slashes, spaces or
tabulators. -/

namespace Symbology.Color

/-- A text that is no color. -/
structure ReadError where
  /-- The text as the author wrote it. -/
  input : String
deriving DecidableEq, Repr

/-- The message names the whole input, as the author wrote it. -/
def ReadError.message (e : ReadError) : String :=
  "could not parse color from " ++ Text.quoted e.input

/-! ## Numbers -/

/-- The number that a word in lower case stands for. -/
def wordNumber? (word : List Char) : Option Float32 :=
  Number.ofWord? (1 / 0) (0 / 0) word

/-- The number that a text in lower case spells: a numeral, or a word with an optional sign. -/
def number? (text : List Char) : Option Float32 :=
  match Numeral.readFree? text with
  | some numeral => some numeral.toFloat32
  | none =>
    let (sign, word) := Numeral.takeSign text
    (wordNumber? word).map (fun x => if sign = some '-' then -x else x)

/-- A number with an optional percent sign behind it, and whether there is one. -/
def component? (text : List Char) : Option (Float32 × Bool) :=
  if text.getLast? = some '%' then (number? text.dropLast).map (·, true)
  else (number? text).map (·, false)

/-- A channel between 0 and 255, or in percent of 255. -/
def channel? (text : List Char) : Option Float32 :=
  (component? text).map (fun (value, percent) =>
    let value := if percent then value / 100 * 255 else value
    Number.clamp 0 255 (Number.roundHalfAway value) / 255)

/-- The alpha channel, between 0 and 1 or in percent; it is 1 when it is not written. -/
def alpha? : Option (List Char) → Option Float32
  | none => some 1
  | some text =>
    (component? text).map (fun (value, percent) =>
      Number.clamp 0 1 (if percent then value / 100 else value))

/-- A percentage as a number between 0 and 1; the percent sign may be left out. -/
def share? (text : List Char) : Option Float32 :=
  (component? text).map (fun (value, _) => Number.clamp 0 1 (value / 100))

/-- A hue in degrees. The unit `deg` may be left out. -/
def hue? (text : List Char) : Option Float32 :=
  if text.drop (text.length - 3) = "deg".toList then number? (text.take (text.length - 3))
  else number? text

/-! ## Functions -/

/-- The color with the arguments of `rgb` or `rgba`. -/
def ofRgbArguments? : List (List Char) → Option Color
  | red :: green :: blue :: rest =>
    if 1 < rest.length then none
    else match channel? red, channel? green, channel? blue, alpha? rest.head? with
      | some r, some g, some b, some a => some ⟨r, g, b, a⟩
      | _, _, _, _ => none
  | _ => none

/-- The color with the arguments of `hsl` or `hsla`. -/
def ofHslArguments? : List (List Char) → Option Color
  | hue :: saturation :: lightness :: rest =>
    if 1 < rest.length then none
    else match hue? hue, share? saturation, share? lightness, alpha? rest.head? with
      | some h, some s, some l, some a => some (ofHsl h s l a)
      | _, _, _, _ => none
  | _ => none

/-- A character between the arguments of a function. -/
def isSeparator (c : Char) : Bool :=
  c == ',' || c == '/' || c == ' ' || c == '\t'

/-- The arguments in a text: the longest runs of characters that are not separators. -/
def arguments : List Char → List (List Char)
  | [] => []
  | c :: rest =>
    if isSeparator c then arguments rest
    else match rest with
      | [] => [[c]]
      | next :: _ =>
        if isSeparator next then [c] :: arguments rest
        else match arguments rest with
          | [] => [[c]]
          | first :: others => (c :: first) :: others

/-- The name and the arguments of a function: what stands before the first opening parenthesis,
and what stands behind it up to a closing one at the end. -/
def splitFunction? (text : List Char) : Option (List Char × List (List Char)) :=
  match text.dropWhile (· != '(') with
  | [] => none
  | _ :: inner =>
    if inner.getLast? = some ')' then
      some (Text.trim (text.takeWhile (· != '(')), arguments inner.dropLast)
    else none

/-- The color that a function with arguments stands for. -/
def ofFunction? (name : List Char) (args : List (List Char)) : Option Color :=
  if name = "rgb".toList ∨ name = "rgba".toList then ofRgbArguments? args
  else if name = "hsl".toList ∨ name = "hsla".toList then ofHslArguments? args
  else none

/-! ## Hexadecimal digits -/

/-- The value of a hexadecimal digit in lower case. -/
def hexDigit? (c : Char) : Option Nat :=
  if c.isDigit then some (c.toNat - '0'.toNat)
  else if 'a' ≤ c ∧ c ≤ 'f' then some (c.toNat - 'a'.toNat + 10)
  else none

/-- The number whose hexadecimal digits are given. -/
def ofHexDigits (digits : List Nat) : Nat :=
  digits.foldl (fun value digit => value * 16 + digit) 0

/-- The color with hexadecimal digits: one or two for each channel, alpha last if it is there. -/
def ofHex? (text : List Char) : Option Color :=
  (text.mapM hexDigit?).bind (fun digits =>
    let twice := digits.flatMap (fun digit => [digit, digit])
    let color (digits : List Nat) : Color :=
      let alpha := if digits.length = 6 then 255 else ofHexDigits (digits.drop 6)
      ofRgb (ofHexDigits (digits.take 6)) (Float32.ofNat alpha / 255)
    match digits.length with
    | 3 | 4 => some (color twice)
    | 6 | 8 => some (color digits)
    | _ => none)

/-! ## The reader -/

/-- The color that a text in lower case and without blanks around it stands for. -/
def ofChars? (text : List Char) : Option Color :=
  if text = "transparent".toList then some transparent
  else match text with
    | '#' :: digits => ofHex? digits
    | _ =>
      match splitFunction? text with
      | some (name, args) => ofFunction? name args
      | none => (named? (String.ofList text)).map (ofRgb · 1)

/-- The color that a text stands for, in letters of any case and with blanks around it. -/
def read (input : String) : Except ReadError Color :=
  match ofChars? ((Text.trim input.toList).map Char.toLower) with
  | some color => .ok color
  | none => .error ⟨input⟩

end Symbology.Color
