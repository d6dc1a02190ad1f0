import Symbology.Number.Decimal

set_option autoImplicit false

/-! # The shortest decimal that reads back

Every real number in an interval around a floating-point number `m · 2 ^ q` is rounded to it. The
decimals with `n` digits are the points of a grid; the shortest decimal that reads back is the
first point that lies in the interval when the grids are taken from coarse to fine. Of two points
on one grid the nearer one counts, and a tie is settled by a rule of the format.

All comparisons are between whole numbers: lengths are measured in quarters of `2 ^ q`, and both
sides are multiplied by the powers of two and ten that clear the denominators. -/

namespace Symbology.Decimal

open Number (scale)

/-- Which of two equally near decimals is taken. -/
inductive Tie where
  /-- The greater one. -/
  | up
  /-- The one with the even last digit. -/
  | even
deriving DecidableEq, Repr

/-- The positive number `mantissa · 2 ^ exponent` among its neighbours in a format. -/
structure Binary where
  /-- The whole number of units in the last place. -/
  mantissa : Nat
  /-- The power of two of the last place. -/
  exponent : Int
  /-- Whether the gap to the next smaller number is half as wide as the one to the next greater. -/
  narrowBelow : Bool

namespace Binary

/-- A quarter of the last place of `b`, measured in `scale`s of the grid `10 ^ g`. -/
def quarter (b : Binary) (g : Int) : Nat :=
  scale 2 (b.exponent - 2) (scale 10 (-g) 1)

/-- One step of the grid `10 ^ g`, in the same measure as `quarter`. -/
def step (b : Binary) (g : Int) : Nat :=
  scale 2 (2 - b.exponent) (scale 10 g 1)

/-- The lower end of the numbers that are rounded to `b`, in quarters of the last place. -/
def low (b : Binary) : Nat :=
  if b.narrowBelow then 4 * b.mantissa - 1 else 4 * b.mantissa - 2

/-- The upper end of the numbers that are rounded to `b`, in quarters of the last place. -/
def high (b : Binary) : Nat :=
  4 * b.mantissa + 2

/-- `c · 10 ^ g` is rounded to `b`. An end of the interval belongs to `b` when the mantissa is
even. -/
def rounds (b : Binary) (g : Int) (c : Nat) : Bool :=
  let x := c * b.step g
  let unit := b.quarter g
  if b.mantissa % 2 = 0 then decide (b.low * unit ≤ x ∧ x ≤ b.high * unit)
  else decide (b.low * unit < x ∧ x < b.high * unit)

/-- The decimal on the grid `10 ^ g` that is rounded to `b` and nearest to it, if there is one. -/
def onGrid (tie : Tie) (b : Binary) (g : Int) : Option Nat :=
  let value := 4 * b.mantissa * b.quarter g
  let below := value / b.step g
  let above := below + 1
  match b.rounds g below, b.rounds g above with
  | false, false => none
  | true, false => some below
  | false, true => some above
  | true, true =>
    let down := value - below * b.step g
    let rise := above * b.step g - value
    if down < rise then some below
    else if rise < down then some above
    else match tie with
      | .up => some above
      | .even => some (if below % 2 = 0 then below else above)

/-- The decimal that is exactly the number. There always is one, as ten is a multiple of two. -/
def exactDecimal (b : Binary) : Decimal :=
  if 0 ≤ b.exponent then ⟨scale 2 b.exponent b.mantissa, 0⟩
  else ⟨scale 5 (-b.exponent) b.mantissa, b.exponent⟩

/-- The first hit on the grids `10 ^ g`, `10 ^ (g - 1)`, …, and the exact value when `grids` of
them have none. -/
def firstHit (tie : Tie) (b : Binary) : (grids : Nat) → (g : Int) → Decimal
  | 0, _ => b.exactDecimal
  | grids + 1, g =>
    match b.onGrid tie g with
    | some c => ⟨c, g⟩
    | none => firstHit tie b grids (g - 1)

/-- The place of the decimal point, which is the exponent of the least power of ten above `b`. -/
def decade (b : Binary) : Int :=
  let numerator := scale 2 b.exponent b.mantissa
  let denominator := scale 2 (-b.exponent) 1
  if denominator ≤ numerator then (Nat.toDigits 10 (numerator / denominator)).length
  else 1 - (Nat.toDigits 10 ((denominator - 1) / numerator)).length

/-- The decimal with the fewest digits that is rounded to `b`, and of those the nearest. -/
def shortest (tie : Tie) (b : Binary) : Decimal :=
  -- seventeen digits are enough for every number of the two formats
  firstHit tie b 18 b.decade

end Binary

end Symbology.Decimal
