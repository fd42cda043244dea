/-
**More months lead to a later date.**

A date that is moved by months is counted from the first day of the month that is reached, by its
day of the month. Months start one after the other, so the same day counted from a later start is
later, and also where it spills into the month behind because the month that is reached is too
short.

* `CalendarMonth.start_add_length_le`: a month ends before every later one starts;
* `Date.IsEarlier` compares year, month and day, and `isEarlier_iff`: it compares the day numbers;
* `Date.isEarlier_of_addMonths?`: dates moved by months are in the order of the months;
* `shiftedDate?_moreMonths`: and so are the dates that are written with months behind them.
-/

import Worksheet.Proofs.Calendar.WrittenShift

namespace Worksheet

/-! ### Months -/

namespace CalendarMonth

/-- A month ends before every later one starts. -/
theorem start_add_length_le {m later : CalendarMonth} (before : m.index < later.index) :
    m.start + m.length ≤ later.start := by
  obtain ⟨between, apart⟩ : ∃ between : Nat, later.index = m.index + 1 + between :=
    ⟨(later.index - (m.index + 1)).toNat, by omega⟩
  clear before
  induction between generalizing later with
  | zero =>
    obtain rfl : later = m.next := index_injective (by rw [index_next]; omega)
    rw [start_next]
  | succ between ih =>
    obtain ⟨previous, isPrevious⟩ := exists_index (m.index + 1 + between)
    obtain rfl : later = previous.next := index_injective (by rw [index_next]; omega)
    have earlier := ih isPrevious
    rw [start_next]
    omega

/-- Months start one after the other. -/
theorem start_lt {m later : CalendarMonth} (before : m.index < later.index) :
    m.start < later.start := by
  have ends := start_add_length_le before
  have long := m.le_length
  omega

end CalendarMonth

/-! ### Days -/

namespace CalendarDay

variable {d other : CalendarDay}

/-- The days of a month come before those of every later one. -/
theorem dayNumber_lt_of_index_lt (before : d.month.index < other.month.index) :
    d.dayNumber < other.dayNumber := by
  have ends := CalendarMonth.start_add_length_le before
  have isDay := d.isDay
  unfold dayNumber
  omega

/-- Days are in the order of their months, and those of one month in the order of the days. -/
theorem dayNumber_lt_iff : d.dayNumber < other.dayNumber ↔
    d.month.index < other.month.index ∨ d.month.index = other.month.index ∧ d.day < other.day := by
  have isDay := d.isDay
  rcases lt_trichotomy d.month.index other.month.index with before | same | behind
  · exact iff_of_true (dayNumber_lt_of_index_lt before) (Or.inl before)
  · have sameMonth := CalendarMonth.index_injective same
    unfold dayNumber
    rw [sameMonth]
    omega
  · have reversed := dayNumber_lt_of_index_lt behind
    omega

/-- **More months lead to a later day.** -/
theorem dayNumber_lt_of_monthsAway {start near far : CalendarDay} {months more : Int}
    (fewer : months < more) (isNear : MonthsAway start months near)
    (isFar : MonthsAway start more far) : near.dayNumber < far.dayNumber := by
  obtain ⟨target, isTarget, falls⟩ := monthsAway_iff.mp isNear
  obtain ⟨further, isFurther, fallsToo⟩ := monthsAway_iff.mp isFar
  have before : target.index < further.index := by omega
  have starts := CalendarMonth.start_lt before
  rw [fallsOn_iff.mp falls, fallsOn_iff.mp fallsToo]
  omega

end CalendarDay

/-! ### Dates -/

namespace Date

/-- The year is earlier, or the month in the same year, or the day in the same month. -/
def IsEarlier (date other : Date) : Prop :=
  date.year < other.year ∨ date.year = other.year ∧
    (date.month < other.month ∨ date.month = other.month ∧ date.day < other.day)

instance (date other : Date) : Decidable (date.IsEarlier other) :=
  inferInstanceAs (Decidable (_ ∨ _))

/-- Dates are in the order of their day numbers. -/
theorem isEarlier_iff (date other : Date) :
    date.IsEarlier other ↔ date.dayNumber < other.dayNumber := by
  obtain ⟨d, isDate⟩ := CalendarDay.exists_of_date date
  obtain ⟨d', isOther⟩ := CalendarDay.exists_of_date other
  obtain ⟨year, month, day⟩ := CalendarDay.toDate?_eq_some_iff.mp isDate
  obtain ⟨year', month', day'⟩ := CalendarDay.toDate?_eq_some_iff.mp isOther
  have isMonth := d.month.isMonth
  have isMonth' := d'.month.isMonth
  rw [CalendarDay.dayNumber_of_toDate? isDate, CalendarDay.dayNumber_of_toDate? isOther,
    CalendarDay.dayNumber_lt_iff]
  unfold IsEarlier CalendarMonth.index
  omega

/-- The day that a date is moved to lies that many months away. -/
theorem exists_monthsAway {date other : Date} {months : Int}
    (moved : date.addMonths? months = some other) {start : CalendarDay}
    (isDate : start.toDate? = some date) :
    ∃ reached, start.MonthsAway months reached ∧ other.dayNumber = reached.dayNumber := by
  obtain ⟨reached, away, -⟩ := CalendarDay.existsUnique_monthsAway start months
  rw [CalendarDay.addMonths?_eq isDate away] at moved
  exact ⟨reached, away, CalendarDay.dayNumber_of_toDate? moved⟩

/-- **Moving a date by more months leads to a later date.** -/
theorem isEarlier_of_addMonths? {date earlier later : Date} {months more : Int}
    (fewer : months < more) (first : date.addMonths? months = some earlier)
    (second : date.addMonths? more = some later) : earlier.IsEarlier later := by
  obtain ⟨start, isDate⟩ := CalendarDay.exists_of_date date
  obtain ⟨near, isNear, nearNumber⟩ := exists_monthsAway first isDate
  obtain ⟨far, isFar, farNumber⟩ := exists_monthsAway second isDate
  rw [isEarlier_iff, nearNumber, farNumber]
  exact CalendarDay.dayNumber_lt_of_monthsAway fewer isNear isFar

end Date

/-! ### Written months -/

/-- What is written is a date and a number of months. -/
structure WrittenShift.IsMonths (written : WrittenShift) (date : Date) (months : Int) : Prop where
  isDate : Date.ofFields? written.toShift.year written.toShift.month written.toShift.day = some date
  isAmount : written.amount = months
  isUnit : written.unit = .month

/-- A date that is written with months behind it is moved by them. -/
theorem WrittenShift.IsMonths.shiftedDate?_eq {written : WrittenShift} {date : Date} {months : Int}
    (isMonths : written.IsMonths date months) {before : Text}
    (noDigit : ∀ c ∈ before, c.isDigit = false) (behind : Text) :
    shiftedDate? (before ++ (written.toText ++ behind)) = date.addMonths? months := by
  have unit : written.toShift.unit = .month := isMonths.isUnit
  have amount : written.toShift.amount = months := isMonths.isAmount
  rw [shiftedDate?, written.find?_toText noDigit, Option.bind_some, DateShift.target?,
    isMonths.isDate, unit, amount]

/-- **More months lead to a later date.** If a date is written with two numbers of months, and both
lead to a date, then the smaller number leads to the earlier one. -/
theorem shiftedDate?_moreMonths {date : Date} {months more : Int} (fewer : months < more)
    {near far : WrittenShift} (isNear : near.IsMonths date months) (isFar : far.IsMonths date more)
    {before beforeToo : Text} (noDigit : ∀ c ∈ before, c.isDigit = false)
    (noDigitToo : ∀ c ∈ beforeToo, c.isDigit = false) {behind behindToo : Text}
    {earlier later : Date}
    (first : shiftedDate? (before ++ (near.toText ++ behind)) = some earlier)
    (second : shiftedDate? (beforeToo ++ (far.toText ++ behindToo)) = some later) :
    earlier.IsEarlier later := by
  rw [isNear.shiftedDate?_eq noDigit] at first
  rw [isFar.shiftedDate?_eq noDigitToo] at second
  exact Date.isEarlier_of_addMonths? fewer first second

/-- Two months after the last day of January. -/
def WrittenShift.twoMonths : WrittenShift :=
  { monthEnd with
    digits := "2".toList
    isDigits := ⟨List.cons_ne_nil _ _, List.all_eq_true.mp rfl⟩ }

/-- One month after the last day of January lies in March, and two months after it too, but
later. -/
theorem shiftedDate?_moreMonths_march :
    ∃ earlier later, shiftedDate? "2024-01-31 + 1MONTH".toList = some earlier ∧
      shiftedDate? "2024-01-31 + 2MONTHS".toList = some later ∧
      earlier.toText = "2024-03-02".toList ∧ later.toText = "2024-03-31".toList ∧
      earlier.IsEarlier later := by
  have isNear : WrittenShift.monthEnd.IsMonths ⟨2024, 1, 31, by decide⟩ 1 := ⟨rfl, rfl, rfl⟩
  have isFar : WrittenShift.twoMonths.IsMonths ⟨2024, 1, 31, by decide⟩ 2 := ⟨rfl, rfl, rfl⟩
  have first : shiftedDate? ([] ++ (WrittenShift.monthEnd.toText ++ [])) =
      some ⟨2024, 3, 2, by decide⟩ := by decide +kernel
  have second : shiftedDate? ([] ++ (WrittenShift.twoMonths.toText ++ ['S'])) =
      some ⟨2024, 3, 31, by decide⟩ := by decide +kernel
  exact ⟨_, _, first, second, by decide, by decide,
    shiftedDate?_moreMonths (by decide) isNear isFar (List.forall_mem_nil _) (List.forall_mem_nil _)
      first second⟩

end Worksheet
