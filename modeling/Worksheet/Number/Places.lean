/-
**Six places after the point.**

A converted amount is rounded to six places after the point, a tie going away from zero, and written
without zeros at the end. The sign stays also when nothing else does. Numbers are written with a
fixed number of places by rounding their exact value, a tie going to the even digit, so that ties are
looked for first: a tie has exactly seven places, of which the last is a `5`, and is a whole number
when it is taken 128 times. Its digits are read as one number, which is rounded up.

* `placesText` writes a double with a number of places, a tie going to the even digit;
* `roundedText` writes six places, a tie going away from zero;
* `sixPlacesText` leaves the zeros at the end out.
-/

import Worksheet.Number.Shortest
import Worksheet.Number.Whole

namespace Worksheet

/-! ### A number of places -/

/-- A whole number of units of the last of some places, with all the places. -/
def unitsText (places units : Nat) : Text :=
  Nat.toDigits 10 (units / Nat.pow 10 places) ++
    '.' :: Text.zeroPadded places (units % Nat.pow 10 places)

/-- The text of a double with a number of places, at least one, after the point: the exact value is
rounded to the nearest number of units, a tie to the even one. -/
def placesText (places : Nat) (x : Float) : Text :=
  match Binary.ofFloat? x with
  | some b =>
    (if b.negative then ['-'] else []) ++
      unitsText places (roundHalfEven (b.magnitude * (10 : Rat) ^ places))
  | none => shortestText x

/-- The number below `2 ^ 128` that is written with the digits. -/
def wideNumber? (digits : Text) : Option Nat :=
  if digits.isEmpty || !digits.all Char.isDigit then none
  else
    let number := Nat.ofDigitChars 10 digits 0
    if number < Nat.pow 2 128 then some number else none

/-! ### Six places -/

/-- The magnitude of a tie in units of a ten-millionth, as it is read from its text. -/
def tieDigits? (x : Float) : Option Nat :=
  let wide := placesText 7 x.abs
  if fraction (x * 128.0) == 0.0 && wide.getLast? == some '5' then
    wideNumber? (wide.filter (· != '.'))
  else none

/-- The text of a double with six places after the point, a tie going away from zero. -/
def roundedText (x : Float) : Text :=
  match tieDigits? x with
  | some digits => (if x < 0.0 then ['-'] else []) ++ unitsText 6 (digits / 10 + 1)
  | none => placesText 6 x

/-- The text without the copies of a character at its end. -/
def dropLast (c : Char) (text : Text) : Text :=
  (text.reverse.dropWhile (· == c)).reverse

/-- The text of a double with at most six places after the point, and no point behind which there is
nothing. -/
def sixPlacesText (x : Float) : Text :=
  let text := roundedText x
  if text.contains '.' then dropLast '.' (dropLast '0' text) else text

/-! ### Values -/

example : sixPlacesText (1 / 3) = "0.333333".toList := by decide +kernel

example : sixPlacesText 0.0078125 = "0.007813".toList := by decide +kernel

example : sixPlacesText (-1e-9) = "-0".toList ∧ sixPlacesText 1000 = "1000".toList := by
  decide +kernel

example : sixPlacesText (1 / 0) = "inf".toList := by decide +kernel

end Worksheet
