/-
**Dates as text.**

A date is written as year, month and day with hyphens between them. Years from 0 to 9999 have four
digits; all others have a sign and at least four digits. Reading is more liberal than writing:
white space may stand in front of each number, digits may be missing, and a year with a sign may
have any number of digits.

* `Date.toText` writes a date;
* `Date.ofText?` reads one, and has no answer for text behind it and for a day that does not exist.
-/

import Worksheet.Calendar.Date
import Worksheet.Text.Basic

namespace Worksheet

namespace Date

/-! ### Writing -/

/-- The digits of a year, and its sign outside the years from 0 to 9999. -/
def yearText (year : Int) : Text :=
  let digits := Text.zeroPadded 4 year.natAbs
  if year < 0 then '-' :: digits
  else if 9999 < year then '+' :: digits
  else digits

/-- The date with hyphens between year, month and day. -/
def toText (date : Date) : Text :=
  yearText date.year ++ '-' :: Text.zeroPadded 2 date.month ++ '-' :: Text.zeroPadded 2 date.day

/-! ### Reading -/

/-- Reads digits, at least one and no more than `most`, and returns the rest. -/
def readDigits? (most : Nat) (text : Text) : Option (Nat × Text) :=
  let digits := (text.takeWhile Char.isDigit).take most
  if digits.isEmpty then none
  else some (Nat.ofDigitChars 10 digits 0, text.drop digits.length)

/-- Reads a year: four digits at most, or a sign and any number of digits. -/
def readYear? (text : Text) : Option (Int × Text) :=
  match Text.trimStart text with
  | '-' :: rest => (readDigits? rest.length rest).map fun (n, rest) => (-(n : Int), rest)
  | '+' :: rest => (readDigits? rest.length rest).map fun (n, rest) => ((n : Int), rest)
  | text => (readDigits? 4 text).map fun (n, rest) => ((n : Int), rest)

/-- Reads a hyphen, white space, and one or two digits. -/
def readField? (text : Text) : Option (Nat × Text) :=
  match text with
  | '-' :: rest => readDigits? 2 (Text.trimStart rest)
  | _ => none

/-- Reads a date that makes up the whole text. -/
def ofText? (text : Text) : Option Date := do
  let (year, rest) ← readYear? text
  let (month, rest) ← readField? rest
  let (day, rest) ← readField? rest
  if rest.isEmpty then ofFields? year month day else none

/-! ### Values -/

example : (ofText? "2024-02-29".toList).map toText = some "2024-02-29".toList := by decide +kernel

example : (ofText? "+10000-1- 1".toList).map toText = some "+10000-01-01".toList := by
  decide +kernel

example : ofText? "2023-02-29".toList = none ∧ ofText? "10000-01-01".toList = none := by
  decide +kernel

end Date

end Worksheet
