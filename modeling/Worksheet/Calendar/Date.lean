/-
**Dates of the Gregorian calendar.**

The calendar is extended without end to both sides, with a year 0 before year 1; a date lies
between the first day of year -262143 and the last day of year 262142. Days are counted from the
first day of year 0, so that moving by days is addition. Moving by months keeps the day of the
month and lets it spill into the next month where the month is too short.

* `Date` is a date that exists;
* `Date.dayNumber` and `Date.ofDayNumber?` go to the count of days and back;
* `Date.addDays?` and `Date.addMonths?` move a date.
-/

namespace Worksheet

/-! ### Years and months -/

/-- Every fourth year is a leap year, except full centuries that four hundred does not divide. -/
def isLeapYear (year : Int) : Bool :=
  year % 4 == 0 && (year % 100 != 0 || year % 400 == 0)

/-- The lengths of the twelve months of a year. -/
def monthLengths (year : Int) : List Nat :=
  [31, if isLeapYear year then 29 else 28, 31, 30, 31, 30, 31, 31, 30, 31, 30, 31]

/-- The length of a month, counted from one; zero if there is no such month. -/
def daysInMonth (year : Int) (month : Nat) : Nat :=
  if month = 0 then 0 else (monthLengths year)[month - 1]?.getD 0

/-- The number of days from the first day of year 0 to the first day of a year. -/
def yearStart (year : Int) : Int :=
  365 * year + (year + 3) / 4 - (year + 99) / 100 + (year + 399) / 400

/-- The number of days of a year before a month. -/
def daysBeforeMonth (year : Int) (month : Nat) : Nat :=
  ((monthLengths year).take (month - 1)).foldl (· + ·) 0

/-! ### Dates -/

/-- The first year that dates reach. -/
def firstYear : Int := -262143

/-- The last year that dates reach. -/
def lastYear : Int := 262142

/-- The fields name a day that exists, in a year that dates reach. -/
abbrev IsDate (year : Int) (month day : Nat) : Prop :=
  (firstYear ≤ year ∧ year ≤ lastYear) ∧ 1 ≤ day ∧ day ≤ daysInMonth year month

/-- A day of the calendar. -/
structure Date where
  year : Int
  month : Nat
  day : Nat
  exists_day : IsDate year month day
deriving DecidableEq

namespace Date

/-- The date with the given fields, if there is one. -/
def ofFields? (year : Int) (month day : Nat) : Option Date :=
  if exists_day : IsDate year month day then some ⟨year, month, day, exists_day⟩ else none

/-- The number of days from the first day of year 0. -/
def dayNumber (date : Date) : Int :=
  yearStart date.year + ((daysBeforeMonth date.year date.month + (date.day - 1) : Nat) : Int)

/-- The year that a day number falls into. The mean length of a year gives it up to one. -/
def yearOf (number : Int) : Int :=
  let guess := 400 * number / 146097
  if number < yearStart guess then guess - 1
  else if yearStart (guess + 1) ≤ number then guess + 1
  else guess

/-- The month and the day of the month, both counted from one, that lie `days` days behind the first
day of a month, given the lengths of that month and of those behind it. -/
def monthAndDay : (lengths : List Nat) → (month days : Nat) → Nat × Nat
  | [], month, days => (month, days + 1)
  | length :: others, month, days =>
    if days < length then (month, days + 1) else monthAndDay others (month + 1) (days - length)

/-- The date with a day number, if dates reach that far. -/
def ofDayNumber? (number : Int) : Option Date :=
  let year := yearOf number
  let (month, day) := monthAndDay (monthLengths year) 1 (number - yearStart year).toNat
  ofFields? year month day

/-- The date a number of days later, if dates reach that far. -/
def addDays? (date : Date) (days : Int) : Option Date :=
  ofDayNumber? (date.dayNumber + days)

/-- The date a number of months later: the month is counted on, then the day of the month is counted
from its first day. -/
def addMonths? (date : Date) (months : Int) : Option Date :=
  let total := date.year * 12 + ((date.month - 1 : Nat) : Int) + months
  match ofFields? (total / 12) ((total % 12).toNat + 1) 1 with
  | some first => first.addDays? ((date.day - 1 : Nat) : Int)
  | none => none

end Date

end Worksheet
