/-
**The shortest text of a double.**

A double is written with the fewest digits that read back as the same double, and of the numerals
of that length the nearest one. On the grid of `n`-digit numerals only the two neighbours of the
exact value need a look: if any point of the grid reads back, one of them does. Of two that read
back the nearer is taken, an exact tie going to the larger one.

* `decimalOrder` is the number of digits in front of the point;
* `shortestAt?` is the choice on one grid;
* `shortest` is the first choice over the grids of 1 to 17 digits, and the exact value, should there
  be none;
* `shortestText` writes any double, always positionally: `inf`, `-inf`, `NaN` and `-0` included.
-/

import Worksheet.Number.Decimal

namespace Worksheet

/-- The number of decimal digits of a whole number, one for zero. -/
def digitCount (n : Nat) : Nat :=
  (Nat.toDigits 10 n).length

/-- The exponent `k` with `10 ^ (k - 1) ≤ x < 10 ^ k`, for a positive `x`. -/
def decimalOrder (x : Rat) : Int :=
  let numerator := x.num.toNat
  if x.den ≤ numerator then (digitCount (numerator / x.den) : Int)
  else 1 - (digitCount ((x.den - 1) / numerator) : Int)

namespace Shortest

/-- The decimal reads back as the double. -/
def readsBack (d : Decimal) (x : Float) : Bool :=
  d.toFloat.toBits == x.toBits

/-- The numeral on the grid `10 ^ place` that reads back as `x`, the nearest one to its value. -/
def onGrid? (x : Float) (exact : Rat) (place : Int) : Option Decimal :=
  let below := (exact / (10 : Rat) ^ place).floor.toNat
  let low : Decimal := ⟨below, place⟩
  let high : Decimal := ⟨below + 1, place⟩
  match readsBack low x, readsBack high x with
  | true, true => some (if exact - low.toRat < high.toRat - exact then low else high)
  | true, false => some low
  | false, true => some high
  | false, false => none

/-- The exact value as a decimal: a fraction over a power of two is one over a power of ten. -/
def exactDecimal (b : Binary) : Decimal :=
  let places := (-b.exponent).toNat
  ⟨b.mantissa * Nat.pow 2 b.exponent.toNat * Nat.pow 5 places, -(places : Int)⟩

/-- The shortest decimal for a positive finite double `x` with the content `b`. -/
def ofBinary (x : Float) (b : Binary) : Decimal :=
  let exact := b.magnitude
  let order := decimalOrder exact
  let found := (List.range 17).findSome? fun n => onGrid? x exact (order - (n + 1 : Nat))
  found.getD (exactDecimal b)

end Shortest

/-- The shortest decimal that reads back as the magnitude of a finite double. -/
def shortest (b : Binary) : Decimal :=
  if b.mantissa = 0 then ⟨0, 0⟩ else Shortest.ofBinary (nearest b.magnitude) b

/-- The text of a double: the shortest digits that read back, without an exponent. -/
def shortestText (x : Float) : Text :=
  match Binary.ofFloat? x with
  | some b => (if b.negative then ['-'] else []) ++ (shortest b).toText
  | none =>
    if x.isNaN then "NaN".toList
    else if hasSignBit x then "-inf".toList
    else "inf".toList

/-! ### Values -/

example : shortestText 1.5 = "1.5".toList := by decide +kernel

example : shortestText (0.1 + 0.2) = "0.30000000000000004".toList := by decide +kernel

example : shortestText (-1e21) = "-1000000000000000000000".toList := by decide +kernel

example : shortestText 1e-7 = "0.0000001".toList ∧ shortestText 1e-6 = "0.000001".toList := by
  decide +kernel

example : shortestText (0 / 0) = "NaN".toList ∧ shortestText (-0.0) = "-0".toList := by
  decide +kernel

end Worksheet
