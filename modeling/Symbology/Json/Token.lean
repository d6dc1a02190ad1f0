import Symbology.Json.Basic
import Symbology.Number.Numeral

set_option autoImplicit false

/-! # Tokens of a JSON text

A text is read from left to right, one character at a time. The `Scanner` holds the tokens that
are complete and the one it is inside of; `Scanner.advance` takes it past one character, or
refuses the character. A string is held as the numbers of its code units: a character written as
itself is its code point, an escape `\uXXXX` is a unit of UTF-16, and `textOfUnits` joins the two
halves of a pair. -/

namespace Symbology.Json

/-- A token. -/
inductive Token where
  | openArray
  | closeArray
  | openObject
  | closeObject
  | comma
  | colon
  | null
  | bool (value : Bool)
  | number (numeral : Numeral)
  /-- A string; it has no text when an escaped half of a pair stands alone. -/
  | string (text : Option String)
deriving DecidableEq, Repr

/-! ## Strings -/

/-- Whether the code unit is the first half of a surrogate pair. -/
def isLeading (unit : Nat) : Bool :=
  0xd800 ≤ unit && unit < 0xdc00

/-- Whether the code unit is the second half of a surrogate pair. -/
def isTrailing (unit : Nat) : Bool :=
  0xdc00 ≤ unit && unit < 0xe000

/-- The text of a sequence of code units; halves of pairs are joined and may not stand alone. -/
def textOfUnits : List Nat → Option (List Char)
  | [] => some []
  | unit :: rest =>
    if isLeading unit then
      match rest with
      | [] => none
      | next :: rest =>
        if isTrailing next then
          (textOfUnits rest).map
            (Char.ofNat (0x10000 + (unit - 0xd800) * 0x400 + (next - 0xdc00)) :: ·)
        else none
    else if isTrailing unit then none
    else (textOfUnits rest).map (Char.ofNat unit :: ·)

/-- The value of a hexadecimal digit in either case. -/
def hexDigit? (c : Char) : Option Nat :=
  if '0' ≤ c ∧ c ≤ '9' then some (c.toNat - '0'.toNat)
  else if 'a' ≤ c ∧ c ≤ 'f' then some (c.toNat - 'a'.toNat + 10)
  else if 'A' ≤ c ∧ c ≤ 'F' then some (c.toNat - 'A'.toNat + 10)
  else none

/-- The code unit that a one-letter escape stands for. -/
def escapedUnit? : Char → Option Nat
  | '"' => some '"'.toNat
  | '\\' => some '\\'.toNat
  | '/' => some '/'.toNat
  | 'b' => some 0x8
  | 'f' => some 0xc
  | 'n' => some 0xa
  | 'r' => some 0xd
  | 't' => some 0x9
  | _ => none

/-! ## The scanner -/

/-- What a scanner is inside of. Characters and units are held with the newest first. -/
inductive Scanner.Inside where
  /-- Nothing: the next character is a space or starts a token. -/
  | nothing
  /-- One of the words `null`, `true` and `false`. -/
  | word (letters : List Char)
  | numeral (chars : List Char)
  | string (units : List Nat)
  /-- A string, behind a backslash. -/
  | escape (units : List Nat)
  /-- A string, in an escape of four hexadecimal digits, of which `count` are read. -/
  | hex (units : List Nat) (count value : Nat)

/-- The complete tokens, the newest first, and what the scanner is inside of. -/
structure Scanner where
  /-- The complete tokens, the newest first. -/
  tokens : List Token
  /-- What the scanner is inside of. -/
  inside : Scanner.Inside

namespace Scanner

/-- Whether the character may stand between tokens. -/
def isSpace (c : Char) : Bool :=
  c == ' ' || c == '\t' || c == '\n' || c == '\r'

/-- The token of a word. There are three words. -/
def wordToken? (letters : List Char) : Option Token :=
  if letters = "null".toList then some .null
  else if letters = "true".toList then some (.bool true)
  else if letters = "false".toList then some (.bool false)
  else none

/-- Takes a scanner that is inside of nothing past a character. -/
def start (tokens : List Token) (c : Char) : Option Scanner :=
  let single (token : Token) : Option Scanner := some ⟨token :: tokens, .nothing⟩
  if isSpace c then some ⟨tokens, .nothing⟩
  else if c = '[' then single .openArray
  else if c = ']' then single .closeArray
  else if c = '\x7b' then single .openObject
  else if c = '\x7d' then single .closeObject
  else if c = ',' then single .comma
  else if c = ':' then single .colon
  else if c = '"' then some ⟨tokens, .string []⟩
  else if c.isLower then some ⟨tokens, .word [c]⟩
  else if c.isDigit || c == '-' then some ⟨tokens, .numeral [c]⟩
  else none

/-- The tokens when the word or number that the scanner is inside of ends. -/
def close? (scanner : Scanner) : Option (List Token) :=
  match scanner.inside with
  | .nothing => some scanner.tokens
  | .word letters => (wordToken? letters.reverse).map (· :: scanner.tokens)
  | .numeral chars =>
    (Numeral.readStrict? chars.reverse).map (fun numeral => .number numeral :: scanner.tokens)
  | _ => none

/-- The scanner behind one more character, if the text may go on with it. A word or a numeral ends
where a character does not belong to it, and that character begins the next token. -/
def advance (scanner : Scanner) (c : Char) : Option Scanner :=
  match scanner.inside with
  | .nothing => start scanner.tokens c
  | .word letters =>
    if c.isLower then some ⟨scanner.tokens, .word (c :: letters)⟩
    else scanner.close?.bind (start · c)
  | .numeral chars =>
    if Numeral.isNumeric c then some ⟨scanner.tokens, .numeral (c :: chars)⟩
    else scanner.close?.bind (start · c)
  | .string units =>
    if c = '"' then
      -- surrogates are paired only now that all code units are known
      some ⟨.string ((textOfUnits units.reverse).map String.ofList) :: scanner.tokens, .nothing⟩
    else if c = '\\' then some ⟨scanner.tokens, .escape units⟩
    else if c.toNat < 0x20 then none
    else some ⟨scanner.tokens, .string (c.toNat :: units)⟩
  | .escape units =>
    if c = 'u' then some ⟨scanner.tokens, .hex units 0 0⟩
    else (escapedUnit? c).map (fun unit => ⟨scanner.tokens, .string (unit :: units)⟩)
  | .hex units count value =>
    (hexDigit? c).map (fun digit =>
      let value := value * 16 + digit
      if count = 3 then ⟨scanner.tokens, .string (value :: units)⟩
      else ⟨scanner.tokens, .hex units (count + 1) value⟩)

end Scanner

/-- The tokens of a text, in order. -/
def tokens? (text : List Char) : Option (List Token) :=
  (text.foldlM Scanner.advance ⟨[], .nothing⟩).bind (fun scanner =>
    scanner.close?.map List.reverse)

end Symbology.Json
