/-
**Exact dates.**

A date with a distance behind it leads to the day that lies this far away in the calendar, whatever
white space stands between the parts, in whatever case the unit is written, and whatever stands
around it, as long as there are no digits in front. There is no answer if the date does not exist,
or if the day is one that dates do not reach.

* `WrittenShift` is a date and a distance as they can be written;
* `DateShift.find?_written`: the program finds them;
* `shiftedDate?_exact`: the date that they lead to.
-/

import Worksheet.Proofs.Calendar.Distance
import Worksheet.Proofs.Calendar.Reading
import Worksheet.Proofs.Expr.Scan

namespace Worksheet

/-- A date of digits, a sign, digits and a unit in any case, with white space between them. -/
structure WrittenShift where
  year : Text
  month : Text
  day : Text
  beforeSign : Text
  backwards : Bool
  behindSign : Text
  digits : Text
  beforeUnit : Text
  unit : TimeUnit
  spelled : Text
  isYear : year.length = 4 ∧ ∀ c ∈ year, c.isDigit = true
  isMonth : month.length = 2 ∧ ∀ c ∈ month, c.isDigit = true
  isDay : day.length = 2 ∧ ∀ c ∈ day, c.isDigit = true
  beforeSignBlank : ∀ c ∈ beforeSign, Text.isBlank c = true
  behindSignBlank : ∀ c ∈ behindSign, Text.isBlank c = true
  isDigits : digits ≠ [] ∧ ∀ c ∈ digits, c.isDigit = true
  beforeUnitBlank : ∀ c ∈ beforeUnit, Text.isBlank c = true
  isUnit : spelled.map Char.toLower = unit.spelling

namespace WrittenShift

variable (written : WrittenShift)

/-- The sign of the distance. -/
def sign : Char :=
  bif written.backwards then '-' else '+'

/-- The distance from its sign on. -/
def distanceText : Text :=
  written.sign :: (written.behindSign ++
    (written.digits ++ (written.beforeUnit ++ written.spelled)))

/-- The text of the date and the distance. -/
def toText : Text :=
  written.year ++ '-' :: (written.month ++ '-' :: (written.day ++
    (written.beforeSign ++ written.distanceText)))

/-- The number of units, negative for earlier dates. -/
def amount : Int :=
  bif written.backwards then -(DateShift.number written.digits : Int)
  else DateShift.number written.digits

/-- What is written. -/
def toShift : DateShift where
  year := DateShift.number written.year
  month := DateShift.number written.month
  day := DateShift.number written.day
  amount := written.amount
  unit := written.unit

/-- The day of the calendar that the digits name. -/
def Names (start : CalendarDay) : Prop :=
  start.month.year = DateShift.number written.year ∧
    start.month.month = DateShift.number written.month ∧
    start.day = DateShift.number written.day

/-! ### Finding what is written -/

/-- A unit is a word of letters. -/
theorem isAlpha_spelled : written.spelled ≠ [] ∧ ∀ c ∈ written.spelled, c.isAlpha = true := by
  have nonempty : written.unit.spelling ≠ [] := by
    cases written.unit <;> exact List.cons_ne_nil _ _
  have letters := written.unit.isLower_spelling
  rw [← written.isUnit] at nonempty letters
  refine ⟨fun empty => nonempty (by rw [empty]; rfl), fun c isIn => ?_⟩
  rw [← Char.isLower_toLower_eq_isAlpha]
  exact letters _ (List.mem_map_of_mem isIn)

theorem isAlpha_head?_spelled (behind : Text) :
    ∀ c ∈ (written.spelled ++ behind).head?, c.isAlpha = true :=
  Text.forall_head?_of_forall_mem written.isAlpha_spelled.1 written.isAlpha_spelled.2 behind

/-- No digit stands behind the digits of the distance. -/
theorem isDigit_head?_beforeUnit (behind : Text) :
    ∀ c ∈ (written.beforeUnit ++ (written.spelled ++ behind)).head?, c.isDigit = false := by
  have inGap := Text.border_of_isBlank written.beforeUnitBlank Text.isDigit_eq_false_of_isBlank
  refine Text.forall_head?_append inGap fun c inUnit => ?_
  refine Text.isDigit_eq_false_of_isWordStart ?_
  rw [Text.isWordStart, written.isAlpha_head?_spelled behind c inUnit, Bool.true_or]

/-- What is written is found at its start. -/
theorem atStart?_toText (behind : Text) :
    DateShift.atStart? (written.toText ++ behind) = some written.toShift := by
  have date := DateShift.readDate?_digits
    (written.beforeSign ++ (written.distanceText ++ behind)) written.isYear.2 written.isYear.1
    written.isMonth.2 written.isMonth.1 written.isDay.2 written.isDay.1
  have amount := DateShift.readAmount?_digits written.backwards written.behindSignBlank
    written.isDigits.2 written.isDigits.1 (written.isDigit_head?_beforeUnit behind)
  have unit := TimeUnit.atStart?_append written.isUnit behind
  have signed : ∀ c ∈ (written.distanceText ++ behind).head?, Text.isBlank c = false := by
    rintro c ⟨⟩
    rw [sign]
    cases written.backwards <;> rfl
  have lettered : ∀ c ∈ (written.spelled ++ behind).head?, Text.isBlank c = false :=
    fun c isHead => Text.isBlank_eq_false_of_isAlpha (written.isAlpha_head?_spelled behind c isHead)
  have whole : written.toText ++ behind = written.year ++ '-' :: (written.month ++
      '-' :: (written.day ++ (written.beforeSign ++ (written.distanceText ++ behind)))) := by
    simp only [toText, List.append_assoc, List.cons_append]
  have distance : written.distanceText ++ behind = written.sign :: (written.behindSign ++
      (written.digits ++ (written.beforeUnit ++ (written.spelled ++ behind)))) := by
    simp only [distanceText, List.append_assoc, List.cons_append]
  rw [← sign, ← distance] at amount
  rw [DateShift.atStart?, whole, date, Option.bind_eq_bind, Option.bind_some]
  dsimp only
  rw [Text.trimStart_append written.beforeSignBlank signed, amount, Option.bind_eq_bind,
    Option.bind_some]
  dsimp only
  rw [Text.trimStart_append written.beforeUnitBlank lettered, unit]
  rfl

/-- **What is written is found behind text without digits.** -/
theorem find?_toText {before : Text} (noDigit : ∀ c ∈ before, c.isDigit = false) (behind : Text) :
    DateShift.find? (before ++ (written.toText ++ behind)) = some written.toShift := by
  have found := written.atStart?_toText behind
  rw [DateShift.find?_append noDigit]
  cases whole : written.toText ++ behind with
  | nil =>
    rw [whole] at found
    cases found
  | cons c rest =>
    rw [whole] at found
    rw [DateShift.find?, found]

/-! ### Where it leads -/

variable {written} {start : CalendarDay}

/-- Four digits name a year that dates reach. -/
theorem Names.exists_toDate? (names : written.Names start) :
    ∃ date, start.toDate? = some date := by
  have small := DateShift.number_lt written.isYear.2
  rw [written.isYear.1] at small
  refine CalendarDay.exists_toDate? ⟨?_, ?_⟩
  · unfold firstYear
    have := names.1
    omega
  · unfold lastYear
    have := names.1
    omega

theorem target?_eq_none (noDay : ∀ start, ¬ written.Names start) :
    written.toShift.target? = none := by
  have noDate : Date.ofFields? written.toShift.year written.toShift.month written.toShift.day =
      none := by
    rw [Option.eq_none_iff_forall_ne_some]
    intro date found
    obtain ⟨year, month, day⟩ := Date.ofFields?_eq_some_iff.mp found
    obtain ⟨start, isDate⟩ := CalendarDay.exists_of_date date
    obtain ⟨year', month', day'⟩ := CalendarDay.toDate?_eq_some_iff.mp isDate
    exact noDay start ⟨year'.symm.trans year, month'.symm.trans month, day'.symm.trans day⟩
  rw [DateShift.target?, noDate]

theorem Names.target?_eq (names : written.Names start) {other : CalendarDay}
    (away : start.IsAway written.amount written.unit other) :
    written.toShift.target? = other.toDate? := by
  obtain ⟨date, isDate⟩ := names.exists_toDate?
  refine DateShift.target?_eq ?_ isDate away
  rw [← isDate, CalendarDay.toDate?, names.1, names.2.1, names.2.2]
  rfl

end WrittenShift

/-- **Date arithmetic is exact.** A date with a distance behind it, and no digits in front, has no
answer if there is no such day. Otherwise one day lies the distance away, and the answer is the date
of that day, if dates reach it. -/
theorem shiftedDate?_exact (written : WrittenShift) {before : Text}
    (noDigit : ∀ c ∈ before, c.isDigit = false) (behind : Text) :
    ((∀ start, ¬ written.Names start) →
      shiftedDate? (before ++ (written.toText ++ behind)) = none) ∧
    ∀ start, written.Names start → ∃ reached : CalendarDay,
      start.IsAway written.amount written.unit reached ∧
      (∀ other, start.IsAway written.amount written.unit other → other = reached) ∧
      shiftedDate? (before ++ (written.toText ++ behind)) = reached.toDate? := by
  have answer : shiftedDate? (before ++ (written.toText ++ behind)) = written.toShift.target? := by
    rw [shiftedDate?, written.find?_toText noDigit, Option.bind_some]
  rw [answer]
  refine ⟨WrittenShift.target?_eq_none, fun start names => ?_⟩
  obtain ⟨reached, away, unique⟩ :=
    CalendarDay.existsUnique_isAway start written.amount written.unit
  exact ⟨reached, away, unique, names.target?_eq away⟩

/-- A month after the last day of January. -/
def WrittenShift.monthEnd : WrittenShift where
  year := "2024".toList
  month := "01".toList
  day := "31".toList
  beforeSign := [' ']
  backwards := false
  behindSign := [' ']
  digits := "1".toList
  beforeUnit := []
  unit := .month
  spelled := "MONTH".toList
  isYear := ⟨rfl, List.all_eq_true.mp rfl⟩
  isMonth := ⟨rfl, List.all_eq_true.mp rfl⟩
  isDay := ⟨rfl, List.all_eq_true.mp rfl⟩
  beforeSignBlank := Text.isBlank_of_mem_space
  behindSignBlank := Text.isBlank_of_mem_space
  isDigits := ⟨List.cons_ne_nil _ _, List.all_eq_true.mp rfl⟩
  beforeUnitBlank := List.forall_mem_nil _
  isUnit := rfl

/-- A month after the last day of January is a day of March, since February is too short. -/
theorem shiftedDate?_exact_monthEnd :
    CalendarDay.IsAway ⟨⟨2024, 1, by decide⟩, 31, by decide⟩ 1 .month
        ⟨⟨2024, 3, by decide⟩, 2, by decide⟩ ∧
      shiftedDate? "due 2024-01-31 + 1MONTHS".toList = some ⟨2024, 3, 2, by decide⟩ := by
  have noDigit : ∀ c ∈ "due ".toList, c.isDigit = false := by
    simp
  obtain ⟨reached, away, unique, answer⟩ := (shiftedDate?_exact .monthEnd noDigit "S".toList).2
    ⟨⟨2024, 1, by decide⟩, 31, by decide⟩ ⟨rfl, rfl, rfl⟩
  have march : CalendarDay.IsAway ⟨⟨2024, 1, by decide⟩, 31, by decide⟩ 1 .month
      ⟨⟨2024, 3, by decide⟩, 2, by decide⟩ :=
    ⟨⟨2024, 2, by decide⟩, rfl, Or.inr ⟨by decide, rfl, rfl⟩⟩
  refine ⟨march, answer.trans ?_⟩
  rw [← unique _ march]
  rfl

end Worksheet
