/-
**Moving a date by a written distance.**

A text may hold a date, a sign, a whole number and a unit, as `2024-01-31 + 1 month` does,
anywhere in it. The first such place counts, whatever stands around it, and only that place: if it
names a day that does not exist, or leads further than dates reach, there is no date.

* `TimeUnit` is a unit of distance, with its spellings;
* `DateShift` is what stands at the place, and `DateShift.find?` is the first place;
* `DateShift.target?` is the date that the place leads to;
* `shiftedDate?` is the whole rule.
-/

import Worksheet.Calendar.DateText

namespace Worksheet

/-! ### Units -/

/-- The units in which a date is moved. -/
inductive TimeUnit where
  | day
  | week
  | month
  | year
deriving DecidableEq

namespace TimeUnit

/-- The spelling of a unit, in lower case. -/
def spelling : TimeUnit → Text
  | day => "day".toList
  | week => "week".toList
  | month => "month".toList
  | year => "year".toList

/-- The characters agree apart from case; the Kelvin sign is a capital `k`. -/
def sameLetter (c letter : Char) : Bool :=
  c.toLower == letter || (letter == 'k' && c == '\u212A')

/-- The text starts with the word, in any case. -/
def startsWith : (text word : Text) → Bool
  | _, [] => true
  | [], _ :: _ => false
  | c :: text, letter :: word => sameLetter c letter && startsWith text word

/-- The unit at the start of a text. A spelling that ASCII alone does not bring to lower case counts
as years. -/
def atStart? (text : Text) : Option TimeUnit :=
  match [day, week, month, year].find? fun unit => startsWith text unit.spelling with
  | some unit =>
    if (text.take unit.spelling.length).map Char.toLower == unit.spelling then some unit
    else some year
  | none => none

end TimeUnit

/-! ### Places in a text -/

/-- A date and a distance from it, as they are written. -/
structure DateShift where
  year : Nat
  month : Nat
  day : Nat
  /-- The distance in units, negative for earlier dates. -/
  amount : Int
  unit : TimeUnit
deriving DecidableEq

namespace DateShift

/-- The number that the digits spell. -/
def number (digits : Text) : Nat :=
  Nat.ofDigitChars 10 digits 0

/-- Reads a year of four, a month of two and a day of two digits with hyphens between them. -/
def readDate? (text : Text) : Option ((Nat × Nat × Nat) × Text) :=
  match text with
  | y₁ :: y₂ :: y₃ :: y₄ :: '-' :: m₁ :: m₂ :: '-' :: d₁ :: d₂ :: rest =>
    if [y₁, y₂, y₃, y₄, m₁, m₂, d₁, d₂].all Char.isDigit then
      some ((number [y₁, y₂, y₃, y₄], number [m₁, m₂], number [d₁, d₂]), rest)
    else none
  | _ => none

/-- Reads a sign, white space, and digits. -/
def readAmount? (text : Text) : Option (Int × Text) :=
  match text with
  | sign :: rest =>
    let rest := Text.trimStart rest
    let digits := rest.takeWhile Char.isDigit
    if digits.isEmpty then none
    else if sign == '+' then some ((number digits : Int), rest.dropWhile Char.isDigit)
    else if sign == '-' then some (-(number digits : Int), rest.dropWhile Char.isDigit)
    else none
  | [] => none

/-- The date and distance at the start of a text. White space may stand between the parts. -/
def atStart? (text : Text) : Option DateShift := do
  let ((year, month, day), rest) ← readDate? text
  let (amount, rest) ← readAmount? (Text.trimStart rest)
  let unit ← TimeUnit.atStart? (Text.trimStart rest)
  return { year, month, day, amount, unit }

/-- The first date and distance in a text. -/
def find? : (text : Text) → Option DateShift
  | [] => none
  | c :: rest =>
    match atStart? (c :: rest) with
    | some shift => some shift
    | none => find? rest

/-- The date that lies the distance away, if both dates exist. -/
def target? (shift : DateShift) : Option Date :=
  match Date.ofFields? shift.year shift.month shift.day with
  | none => none
  | some date =>
    match shift.unit with
    | .day => date.addDays? shift.amount
    | .week => date.addDays? (shift.amount * 7)
    | .month => date.addMonths? shift.amount
    | .year => date.addMonths? (shift.amount * 12)

end DateShift

/-- The date that the first date and distance in a text lead to. -/
def shiftedDate? (text : Text) : Option Date :=
  (DateShift.find? text).bind DateShift.target?

/-! ### Values -/

example : (shiftedDate? "2024-01-31 + 1 month".toList).map Date.toText =
    some "2024-03-02".toList := by decide +kernel

example : (shiftedDate? "due 2024-01-01-1Week!".toList).map Date.toText =
    some "2023-12-25".toList := by decide +kernel

example : (shiftedDate? "2024-01-01 + 1 wee\u212A".toList).map Date.toText =
    some "2025-01-01".toList := by decide +kernel

example : shiftedDate? "2023-02-29 + 1 day, 2024-01-01 + 1 day".toList = none := by decide +kernel

end Worksheet
