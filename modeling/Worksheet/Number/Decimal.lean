/-
**Decimal numerals.**

A decimal is a whole coefficient times a power of ten. It is read from digits with at most one
point, and written positionally, without an exponent and without zeros at the end of the fraction.

* `Decimal.ofText?` reads a numeral: digits, at most one of them a point, at least one digit;
* `Decimal.toText` writes one;
* `Decimal.toFloat` is the double nearest to it.
-/

import Worksheet.Text.Basic
import Worksheet.Number.Nearest

namespace Worksheet

/-- The number `coefficient * 10 ^ exponent`. -/
structure Decimal where
  /-- The digits, as one whole number. -/
  coefficient : Nat
  /-- The power of ten of the last digit. -/
  exponent : Int
deriving DecidableEq

namespace Decimal

/-- The number that the numeral stands for. -/
def toRat (d : Decimal) : Rat :=
  (d.coefficient : Rat) * (10 : Rat) ^ d.exponent

/-- The double nearest to the numeral. -/
def toFloat (d : Decimal) : Float :=
  nearest d.toRat

/-! ### Reading -/

/-- Reads digits with at most one point among them and at least one digit; the digits of a fraction
count as places of the exponent. -/
def ofText? (text : Text) : Option Decimal :=
  let whole := text.takeWhile Char.isDigit
  match text.dropWhile Char.isDigit with
  | [] =>
    if whole.isEmpty then none else some ⟨Nat.ofDigitChars 10 whole 0, 0⟩
  | c :: fraction =>
    if c == '.' && fraction.all Char.isDigit && !(whole.isEmpty && fraction.isEmpty) then
      some ⟨Nat.ofDigitChars 10 (whole ++ fraction) 0, -(fraction.length : Int)⟩
    else
      none

/-! ### Writing -/

/-- The digits of a fraction of `places` places, without the zeros at the end. -/
def fractionText (places fraction : Nat) : Text :=
  ((Text.zeroPadded places fraction).reverse.dropWhile (· == '0')).reverse

/-- The numeral in positional notation: the whole part, and a point with the fraction unless the
fraction is zero. -/
def toText (d : Decimal) : Text :=
  let places := (-d.exponent).toNat
  let scaled := d.coefficient * Nat.pow 10 d.exponent.toNat
  let whole := Nat.toDigits 10 (scaled / Nat.pow 10 places)
  match fractionText places (scaled % Nat.pow 10 places) with
  | [] => whole
  | fraction => whole ++ '.' :: fraction

/-! ### Values -/

example : ofText? "12.50".toList = some ⟨1250, -2⟩ := by decide

example : ofText? ".5".toList = some ⟨5, -1⟩ ∧ ofText? "5.".toList = some ⟨5, 0⟩ := by decide

example : ofText? ".".toList = none ∧ ofText? "1.2.3".toList = none ∧ ofText? [] = none := by decide

example : toText ⟨1250, -2⟩ = "12.5".toList ∧ toText ⟨5, -3⟩ = "0.005".toList := by decide

example : toText ⟨3, 4⟩ = "30000".toList ∧ toText ⟨0, -6⟩ = "0".toList := by decide

end Decimal

end Worksheet
