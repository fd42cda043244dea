/-
**Literals.**

A number token is read as a double. Tokens that a text is cut into have only digits and points in
them, but the reader takes every way to write a double: with a sign in front, with a power of ten
behind the digits, and as a word for infinity or for what is not a number.

* `Literal.read?` reads a literal;
* `Literal` is a text that can be read, and `Literal.value` is the double that it stands for.
-/

import Worksheet.Expr.Token
import Worksheet.Number.Decimal

namespace Worksheet

namespace Literal

/-! ### Reading -/

/-- Whether there is a minus in front, and what stands behind the sign. -/
def takeSign (text : Text) : Bool × Text :=
  match text with
  | '-' :: rest => (true, rest)
  | '+' :: rest => (false, rest)
  | rest => (false, rest)

/-- The power of ten behind the digits: the letter `e` and a whole number, or nothing. -/
def power? (text : Text) : Option Int :=
  match text with
  | [] => some 0
  | mark :: written =>
    let (negative, digits) := takeSign written
    if mark.toLower == 'e' && !digits.isEmpty && digits.all Char.isDigit then
      let power : Int := Nat.ofDigitChars 10 digits 0
      some (if negative then -power else power)
    else
      none

/-- Reads digits with at most one point among them, and the power of ten behind them. -/
def decimal? (text : Text) : Option Decimal := do
  let digits ← Decimal.ofText? (text.takeWhile Token.isNumeralPart)
  let power ← power? (text.dropWhile Token.isNumeralPart)
  return ⟨digits.coefficient, digits.exponent + power⟩

/-- The words for infinity and for what is not a number. -/
def words : List (Text × Float) :=
  let infinity := Float.ofBits (UInt64.ofNat Binary.infinityBits)
  [("inf".toList, infinity), ("infinity".toList, infinity),
    ("nan".toList, Float.ofBits 0x7FF8000000000000)]

/-- Reads a word, whatever the case of its letters. -/
def word? (text : Text) : Option Float :=
  words.lookup (text.map Char.toLower)

/-- Reads a literal: digits or a word, with an optional sign. -/
def read? (text : Text) : Option Float :=
  let (negative, magnitude) := takeSign text
  (((decimal? magnitude).map Decimal.toFloat).or (word? magnitude)).map fun x =>
    if negative then -x else x

end Literal

/-- A text that is read as a double. -/
structure Literal where
  text : Text
  good : (Literal.read? text).isSome = true

namespace Literal

/-- The double that the literal is read as. -/
def value (literal : Literal) : Float :=
  (read? literal.text).get literal.good

/-! ### Values -/

example : decimal? "12.50e-3".toList = some ⟨1250, -5⟩ ∧
    decimal? "1.E+2".toList = some ⟨1, 2⟩ := by decide

example : decimal? "e5".toList = none ∧ decimal? "1e".toList = none ∧
    decimal? "1e2.5".toList = none := by decide

example : (read? "-2.5e3".toList).map Float.toBits = some 0xC0A3880000000000 := by decide +kernel

example : (read? "-Infinity".toList).map Float.toBits = some 0xFFF0000000000000 := by
  decide +kernel

example : (read? "+-1".toList).isNone = true ∧ (read? "-".toList).isNone = true := by decide +kernel

end Literal

end Worksheet
