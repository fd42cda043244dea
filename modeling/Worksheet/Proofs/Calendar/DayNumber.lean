/-
**Dates and their day numbers.**

The days of a year lie one behind the other, month by month, and the years lie one behind the other
from the first year to the last. A day number therefore belongs to one year, one month and one day
of the month. The year is guessed from the mean length of a year, which misses by less than a year,
and the lengths of the months are counted off from the year's first day.

* `yearStart_strictMono`: years start one after the other;
* `Date.yearStart_yearOf`: the year found for a day number is the year that it lies in;
* `Date.ofDayNumber?_eq_some_iff`: the date of a day number is the date that has this number;
* `Date.exists_dayNumber_iff`: the day numbers without a gap from the first year to the last;
* `Date.addDays?_eq_some_iff`: moving a date by days adds to its day number.
-/

import Mathlib
import Worksheet.Calendar.Date

namespace Worksheet

/-! ### Years -/

theorem isLeapYear_iff (year : Int) :
    isLeapYear year = true ↔ year % 4 = 0 ∧ (year % 100 ≠ 0 ∨ year % 400 = 0) := by
  simp [isLeapYear]

theorem length_monthLengths (year : Int) : (monthLengths year).length = 12 :=
  rfl

theorem sum_monthLengths (year : Int) :
    (monthLengths year).sum = if isLeapYear year then 366 else 365 := by
  unfold monthLengths
  cases isLeapYear year <;> rfl

theorem le_of_mem_monthLengths {year : Int} {length : Nat} (isIn : length ∈ monthLengths year) :
    length ≤ 31 := by
  unfold monthLengths at isIn
  revert length
  cases isLeapYear year <;> decide

/-- A year starts where the months of the year before it end. -/
theorem yearStart_succ (year : Int) :
    yearStart (year + 1) = yearStart year + ((monthLengths year).sum : Int) := by
  rw [sum_monthLengths]
  unfold yearStart
  by_cases leap : isLeapYear year = true
  · rw [if_pos leap]
    rw [isLeapYear_iff] at leap
    omega
  · rw [if_neg leap]
    rw [isLeapYear_iff] at leap
    omega

theorem yearStart_strictMono : StrictMono yearStart := by
  refine strictMono_int_of_lt_succ fun year => ?_
  rw [yearStart_succ, sum_monthLengths]
  split <;> omega

/-! ### Months -/

theorem daysBeforeMonth_eq (year : Int) (month : Nat) :
    daysBeforeMonth year month = ((monthLengths year).take (month - 1)).sum :=
  List.sum_eq_foldl_nat.symm

theorem daysInMonth_succ (year : Int) (months : Nat)
    (isMonth : months < (monthLengths year).length) :
    daysInMonth year (months + 1) = (monthLengths year)[months] := by
  simp [daysInMonth, isMonth]

/-- A month that has days is one of the twelve. -/
theorem exists_of_le_daysInMonth {year : Int} {month day : Nat}
    (isDay : 1 ≤ day ∧ day ≤ daysInMonth year month) :
    ∃ months, ∃ isMonth : months < (monthLengths year).length,
      month = months + 1 ∧ day ≤ (monthLengths year)[months] := by
  obtain ⟨positive, within⟩ := isDay
  cases month with
  | zero =>
    rw [daysInMonth, if_pos rfl] at within
    omega
  | succ months =>
    by_cases isMonth : months < (monthLengths year).length
    · rw [daysInMonth_succ year months isMonth] at within
      exact ⟨months, isMonth, rfl, within⟩
    · have none : (monthLengths year)[months]? = none := List.getElem?_eq_none (by omega)
      simp only [daysInMonth, Nat.add_sub_cancel, none, Option.getD_none] at within
      split at within <;> omega

/-- The days of a year before one of its days, month by month. -/
theorem exists_daysBefore_eq {year : Int} {month day : Nat}
    (isDay : 1 ≤ day ∧ day ≤ daysInMonth year month) :
    ∃ months, ∃ isMonth : months < (monthLengths year).length, ∃ rest,
      month = months + 1 ∧ day = rest + 1 ∧ rest < (monthLengths year)[months] ∧
        daysBeforeMonth year month + (day - 1) = ((monthLengths year).take months).sum + rest := by
  obtain ⟨months, isMonth, rfl, within⟩ := exists_of_le_daysInMonth isDay
  refine ⟨months, isMonth, day - 1, rfl, by omega, by omega, ?_⟩
  rw [daysBeforeMonth_eq, Nat.add_sub_cancel]

/-- Days before the end of the last month fall into one of the months. -/
theorem exists_month_of_lt_sum {lengths : List Nat} {days : Nat} (within : days < lengths.sum) :
    ∃ months, ∃ isMonth : months < lengths.length, ∃ day,
      days = (lengths.take months).sum + day ∧ day < lengths[months] := by
  induction lengths generalizing days with
  | nil => simp at within
  | cons length others ih =>
    by_cases inFirst : days < length
    · exact ⟨0, by simp, days, by simp, inFirst⟩
    · rw [List.sum_cons] at within
      have behind : days - length < others.sum := by omega
      obtain ⟨months, isMonth, day, split, inMonth⟩ := ih behind
      refine ⟨months + 1, by simpa using isMonth, day, ?_, by simpa using inMonth⟩
      rw [List.take_succ_cons, List.sum_cons]
      omega

/-- The months before one of them, with a day of it, have fewer days than all. -/
theorem sum_take_add_lt {lengths : List Nat} {months day : Nat} (isMonth : months < lengths.length)
    (inMonth : day < lengths[months]) : (lengths.take months).sum + day < lengths.sum := by
  have next := List.sum_take_succ lengths months isMonth
  have split := List.sum_take_add_sum_drop lengths (months + 1)
  omega

/-- A day of a year lies before the end of the year. -/
theorem daysBefore_lt_sum {year : Int} {month day : Nat}
    (isDay : 1 ≤ day ∧ day ≤ daysInMonth year month) :
    daysBeforeMonth year month + (day - 1) < (monthLengths year).sum := by
  obtain ⟨months, isMonth, rest, -, -, inMonth, number⟩ := exists_daysBefore_eq isDay
  rw [number]
  exact sum_take_add_lt isMonth inMonth

/-- The days of a month lie behind those of all months before it. -/
theorem Date.monthAndDay_eq {lengths : List Nat} {months day : Nat}
    (isMonth : months < lengths.length) (inMonth : day < lengths[months]) (first : Nat) :
    monthAndDay lengths first ((lengths.take months).sum + day) = (first + months, day + 1) := by
  induction lengths generalizing first months with
  | nil => simp at isMonth
  | cons length others ih =>
    cases months with
    | zero =>
      have inFirst : day < length := inMonth
      simp [monthAndDay, inFirst]
    | succ months =>
      have isMonth : months < others.length := by simpa using isMonth
      have inMonth : day < others[months] := by simpa using inMonth
      have behind : ¬ length + (others.take months).sum + day < length := by omega
      have rest : length + (others.take months).sum + day - length =
          (others.take months).sum + day := by omega
      rw [List.take_succ_cons, List.sum_cons, monthAndDay, if_neg behind, rest,
        ih isMonth inMonth (first + 1)]
      congr 1
      omega

namespace Date

/-! ### The year of a day number -/

/-- The year found for a day number starts on that day or before it, and the next one behind it. -/
theorem yearStart_yearOf (number : Int) :
    yearStart (yearOf number) ≤ number ∧ number < yearStart (yearOf number + 1) := by
  unfold yearOf
  dsimp only
  have low : 146097 * (400 * number / 146097) ≤ 400 * number := by omega
  have high : 400 * number < 146097 * (400 * number / 146097 + 1) := by omega
  generalize 400 * number / 146097 = guess at low high
  -- The guess is the year before, the year itself or the year behind it.
  split
  · rename_i early
    rw [Int.sub_add_cancel]
    refine ⟨?_, early⟩
    unfold yearStart at early ⊢
    omega
  · split
    · rename_i late
      refine ⟨late, ?_⟩
      unfold yearStart at late ⊢
      omega
    · omega

theorem yearOf_eq {number year : Int} (behind : yearStart year ≤ number)
    (before : number < yearStart (year + 1)) : yearOf number = year := by
  obtain ⟨starts, ends⟩ := yearStart_yearOf number
  have notBefore := yearStart_strictMono.lt_iff_lt.mp (lt_of_le_of_lt behind ends)
  have notBehind := yearStart_strictMono.lt_iff_lt.mp (lt_of_le_of_lt starts before)
  omega

/-- The fields of a day are found from its number. -/
theorem fields_of_number {year : Int} {month day : Nat}
    (isDay : 1 ≤ day ∧ day ≤ daysInMonth year month) {number : Int}
    (isNumber : number = yearStart year + ((daysBeforeMonth year month + (day - 1) : Nat) : Int)) :
    yearOf number = year ∧
      monthAndDay (monthLengths year) 1 (number - yearStart year).toNat = (month, day) := by
  have within := daysBefore_lt_sum isDay
  obtain ⟨months, isMonth, rest, rfl, rfl, inMonth, split⟩ := exists_daysBefore_eq isDay
  have days : (number - yearStart year).toNat = ((monthLengths year).take months).sum + rest := by
    omega
  constructor
  · refine yearOf_eq (by omega) ?_
    rw [yearStart_succ]
    omega
  · rw [days, monthAndDay_eq isMonth inMonth 1, Nat.add_comm 1 months]

theorem ofDayNumber?_eq_ofFields? {year : Int} {month day : Nat}
    (isDay : 1 ≤ day ∧ day ≤ daysInMonth year month) {number : Int}
    (isNumber : number = yearStart year + ((daysBeforeMonth year month + (day - 1) : Nat) : Int)) :
    ofDayNumber? number = ofFields? year month day := by
  obtain ⟨isYear, isMonthAndDay⟩ := fields_of_number isDay isNumber
  unfold ofDayNumber?
  rw [isYear]
  dsimp only
  rw [isMonthAndDay]

/-! ### Dates and day numbers -/

theorem month_le (date : Date) : date.month ≤ 12 := by
  obtain ⟨months, isMonth, month, -⟩ := exists_of_le_daysInMonth date.exists_day.2
  rw [length_monthLengths] at isMonth
  omega

theorem day_le (date : Date) : date.day ≤ 31 := by
  obtain ⟨months, isMonth, -, within⟩ := exists_of_le_daysInMonth date.exists_day.2
  exact within.trans (le_of_mem_monthLengths (List.getElem_mem isMonth))

/-- The day number lies in the date's year. -/
theorem dayNumber_mem_year (date : Date) :
    yearStart date.year ≤ date.dayNumber ∧ date.dayNumber < yearStart (date.year + 1) := by
  have within := daysBefore_lt_sum date.exists_day.2
  rw [yearStart_succ]
  unfold dayNumber
  omega

/-- The fields that a day number has, with the year's start and the days before the month. -/
theorem exists_ofDayNumber? (number : Int) :
    ∃ months, ∃ isMonth : months < (monthLengths (yearOf number)).length, ∃ day,
      day < (monthLengths (yearOf number))[months] ∧
        number = yearStart (yearOf number) +
          (((monthLengths (yearOf number)).take months).sum + day : Nat) ∧
        ofDayNumber? number = ofFields? (yearOf number) (months + 1) (day + 1) := by
  obtain ⟨starts, ends⟩ := yearStart_yearOf number
  rw [yearStart_succ] at ends
  have within : (number - yearStart (yearOf number)).toNat <
      (monthLengths (yearOf number)).sum := by omega
  obtain ⟨months, isMonth, day, split, inMonth⟩ := exists_month_of_lt_sum within
  refine ⟨months, isMonth, day, inMonth, by omega, ?_⟩
  unfold ofDayNumber?
  dsimp only
  rw [split, monthAndDay_eq isMonth inMonth 1, Nat.add_comm 1 months]

theorem ofFields?_eq_some_iff {year : Int} {month day : Nat} {date : Date} :
    ofFields? year month day = some date ↔
      date.year = year ∧ date.month = month ∧ date.day = day := by
  unfold ofFields?
  constructor
  · intro read
    split at read
    · cases read
      exact ⟨rfl, rfl, rfl⟩
    · cases read
  · rintro ⟨rfl, rfl, rfl⟩
    rw [dif_pos date.exists_day]

/-- **The date of a day number is the date that has this number.** -/
theorem ofDayNumber?_eq_some_iff {number : Int} {date : Date} :
    ofDayNumber? number = some date ↔ date.dayNumber = number := by
  constructor
  · intro found
    obtain ⟨months, isMonth, day, inMonth, split, fields⟩ := exists_ofDayNumber? number
    rw [fields, ofFields?_eq_some_iff] at found
    obtain ⟨year, month, dayOfMonth⟩ := found
    rw [split]
    unfold dayNumber
    rw [daysBeforeMonth_eq, year, month, dayOfMonth]
    rfl
  · rintro rfl
    exact (ofDayNumber?_eq_ofFields? date.exists_day.2 rfl).trans
      (ofFields?_eq_some_iff.mpr ⟨rfl, rfl, rfl⟩)

theorem dayNumber_injective {date other : Date} (same : date.dayNumber = other.dayNumber) :
    date = other :=
  Option.some.inj
    ((ofDayNumber?_eq_some_iff.mpr rfl).symm.trans (ofDayNumber?_eq_some_iff.mpr same.symm))

/-- **The dates fill the days from the start of the first year to the end of the last.** -/
theorem exists_dayNumber_iff (number : Int) :
    (∃ date : Date, date.dayNumber = number) ↔
      yearStart firstYear ≤ number ∧ number < yearStart (lastYear + 1) := by
  constructor
  · rintro ⟨date, rfl⟩
    obtain ⟨starts, ends⟩ := dayNumber_mem_year date
    obtain ⟨notBefore, notBehind⟩ := date.exists_day.1
    exact ⟨(yearStart_strictMono.monotone notBefore).trans starts,
      ends.trans_le (yearStart_strictMono.monotone (by omega))⟩
  · rintro ⟨notBefore, notBehind⟩
    obtain ⟨starts, ends⟩ := yearStart_yearOf number
    obtain ⟨months, isMonth, day, inMonth, split, fields⟩ := exists_ofDayNumber? number
    have first := yearStart_strictMono.lt_iff_lt.mp (lt_of_le_of_lt notBefore ends)
    have last := yearStart_strictMono.lt_iff_lt.mp (lt_of_le_of_lt starts notBehind)
    have isDate : IsDate (yearOf number) (months + 1) (day + 1) := by
      refine ⟨⟨by omega, by omega⟩, by omega, ?_⟩
      rw [daysInMonth_succ _ _ isMonth]
      omega
    exact ⟨⟨_, _, _, isDate⟩, ofDayNumber?_eq_some_iff.mp
      (fields.trans (ofFields?_eq_some_iff.mpr ⟨rfl, rfl, rfl⟩))⟩

/-! ### Moving by days -/

/-- **Moving a date by days adds them to its day number.** -/
theorem addDays?_eq_some_iff {date later : Date} {days : Int} :
    date.addDays? days = some later ↔ later.dayNumber = date.dayNumber + days :=
  ofDayNumber?_eq_some_iff

/-- A date can be moved by days as long as it does not leave the years that dates reach. -/
theorem exists_addDays?_iff (date : Date) (days : Int) :
    (∃ later, date.addDays? days = some later) ↔
      yearStart firstYear ≤ date.dayNumber + days ∧
        date.dayNumber + days < yearStart (lastYear + 1) := by
  rw [← exists_dayNumber_iff]
  exact exists_congr fun later => addDays?_eq_some_iff

example : ofDayNumber? (yearStart (lastYear + 1)) = none := by decide +kernel

end Date

end Worksheet
