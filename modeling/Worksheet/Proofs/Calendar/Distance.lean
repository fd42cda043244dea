/-
**Days and months one after the other.**

The calendar is told by what comes next: behind a day comes the next day of its month, and behind
the last one the first day of the next month. The day some days away is reached step by step, and so
is the month some months away, where the same day of the month is taken, or a day of the month
behind if the month is too short for it. The program counts days and months with division instead,
and comes to the same day, as far as dates reach.

* `CalendarMonth` and `CalendarDay` are the months and days of all years, `next` is the one behind;
* `StepsAway` is what is reached in a number of steps, and `stepsAway_iff` counts them;
* `CalendarDay.IsAway` is a distance in a unit, and `CalendarDay.existsUnique_isAway`: one day lies
  that far away;
* `DateShift.target?_eq`: the program finds it.
-/

import Worksheet.Calendar.DateShift
import Worksheet.Proofs.Calendar.DayNumber

namespace Worksheet

/-! ### Steps -/

section Steps

variable {α : Type} {next : α → α} {number : α → Int}

/-- A number of steps leads from one to the other, backwards if it is negative. -/
def StepsAway (next : α → α) (start : α) (steps : Int) (other : α) : Prop :=
  next^[steps.toNat] start = next^[(-steps).toNat] other

theorem number_iterate (counts : ∀ a, number (next a) = number a + 1) (steps : Nat) (a : α) :
    number (next^[steps] a) = number a + steps := by
  induction steps with
  | zero => simp
  | succ steps ih =>
    rw [Function.iterate_succ_apply', counts, ih]
    omega

/-- Where each step adds one to a number, the steps lead to what has so much more as its number. -/
theorem stepsAway_iff (counts : ∀ a, number (next a) = number a + 1)
    (injective : Function.Injective number) {start other : α} {steps : Int} :
    StepsAway next start steps other ↔ number other = number start + steps := by
  rw [StepsAway, ← injective.eq_iff, number_iterate counts, number_iterate counts]
  omega

end Steps

/-! ### Months -/

/-- A month of the calendar, in any year. -/
structure CalendarMonth where
  year : Int
  month : Nat
  isMonth : 1 ≤ month ∧ month ≤ 12

namespace CalendarMonth

/-- The number of days of the month. -/
def length (m : CalendarMonth) : Nat :=
  daysInMonth m.year m.month

/-- The month behind a month. -/
def next (m : CalendarMonth) : CalendarMonth :=
  if inYear : m.month < 12 then ⟨m.year, m.month + 1, by omega⟩
  else ⟨m.year + 1, 1, by decide⟩

/-- Months are counted through the years. -/
def index (m : CalendarMonth) : Int :=
  m.year * 12 + m.month

/-- The number of the first day of the month. -/
def start (m : CalendarMonth) : Int :=
  yearStart m.year + daysBeforeMonth m.year m.month

theorem index_next (m : CalendarMonth) : m.next.index = m.index + 1 := by
  have isMonth := m.isMonth
  unfold next index
  split
  · dsimp only
    omega
  · dsimp only
    omega

theorem index_injective : Function.Injective index := by
  rintro ⟨year, month, isMonth⟩ ⟨year', month', isMonth'⟩ same
  unfold index at same
  dsimp only at same
  obtain rfl : year = year' := by omega
  obtain rfl : month = month' := by omega
  rfl

theorem exists_index (index : Int) : ∃ m : CalendarMonth, m.index = index := by
  refine ⟨⟨(index - 1) / 12, ((index - 1) % 12).toNat + 1, by omega⟩, ?_⟩
  unfold CalendarMonth.index
  dsimp only
  omega

theorem length_eq (m : CalendarMonth) :
    ∃ isMonth : m.month - 1 < (monthLengths m.year).length,
      m.length = (monthLengths m.year)[m.month - 1] := by
  have isMonth := m.isMonth
  have within : m.month - 1 < (monthLengths m.year).length := by
    rw [length_monthLengths]
    omega
  refine ⟨within, ?_⟩
  rw [← daysInMonth_succ m.year _ within, Nat.sub_add_cancel isMonth.1]
  rfl

theorem length_le (m : CalendarMonth) : m.length ≤ 31 := by
  obtain ⟨isMonth, length⟩ := m.length_eq
  rw [length]
  exact le_of_mem_monthLengths (List.getElem_mem isMonth)

theorem le_length (m : CalendarMonth) : 28 ≤ m.length := by
  obtain ⟨isMonth, length⟩ := m.length_eq
  rw [length]
  have long : ∀ length ∈ monthLengths m.year, 28 ≤ length := by
    unfold monthLengths
    cases isLeapYear m.year <;> decide
  exact long _ (List.getElem_mem isMonth)

/-- The last month of a year is long. -/
theorem length_december {m : CalendarMonth} (isLast : m.month = 12) : m.length = 31 := by
  unfold length
  rw [isLast]
  rfl

/-- A month starts where the one before it ends. -/
theorem start_next (m : CalendarMonth) : m.next.start = m.start + m.length := by
  obtain ⟨isMonth, length⟩ := m.length_eq
  have behind := List.sum_take_succ (monthLengths m.year) _ isMonth
  rw [← length] at behind
  unfold start next
  rw [daysBeforeMonth_eq m.year]
  split
  · dsimp only
    rw [daysBeforeMonth_eq, Nat.add_sub_cancel]
    have := m.isMonth
    rw [Nat.sub_add_cancel (by omega)] at behind
    omega
  · have isLast : m.month = 12 := by
      have := m.isMonth
      omega
    dsimp only
    rw [yearStart_succ]
    have all : (monthLengths m.year).take 12 = monthLengths m.year :=
      List.take_of_length_le (length_monthLengths m.year).le
    rw [isLast] at behind ⊢
    rw [all] at behind
    have none : daysBeforeMonth (m.year + 1) 1 = 0 := rfl
    rw [none, behind]
    push_cast
    omega

end CalendarMonth

/-! ### Days -/

/-- A day of the calendar, in any year. -/
structure CalendarDay where
  month : CalendarMonth
  day : Nat
  isDay : 1 ≤ day ∧ day ≤ month.length

namespace CalendarDay

/-- The first day of a month. -/
def first (m : CalendarMonth) : CalendarDay :=
  ⟨m, 1, le_rfl, le_trans (by decide) m.le_length⟩

/-- The day behind a day. -/
def next (d : CalendarDay) : CalendarDay :=
  if inMonth : d.day < d.month.length then ⟨d.month, d.day + 1, by omega⟩ else first d.month.next

/-- The number of days from the first day of year 0. -/
def dayNumber (d : CalendarDay) : Int :=
  d.month.start + (d.day - 1 : Nat)

theorem dayNumber_first (m : CalendarMonth) : (first m).dayNumber = m.start := by
  simp [dayNumber, first]

theorem dayNumber_next (d : CalendarDay) : d.next.dayNumber = d.dayNumber + 1 := by
  have isDay := d.isDay
  unfold next
  split
  · unfold dayNumber
    dsimp only
    omega
  · rw [dayNumber_first, CalendarMonth.start_next, dayNumber]
    omega

theorem dayNumber_eq (d : CalendarDay) : d.dayNumber = yearStart d.month.year +
    ((daysBeforeMonth d.month.year d.month.month + (d.day - 1) : Nat) : Int) := by
  unfold dayNumber CalendarMonth.start
  push_cast
  ring

theorem dayNumber_injective : Function.Injective dayNumber := by
  intro d other same
  obtain ⟨isYear, isMonthAndDay⟩ := Date.fields_of_number d.isDay d.dayNumber_eq
  obtain ⟨isYear', isMonthAndDay'⟩ := Date.fields_of_number other.isDay other.dayNumber_eq
  rw [same, isYear'] at isYear
  rw [same, ← isYear, isMonthAndDay'] at isMonthAndDay
  obtain ⟨⟨year, month, isMonth⟩, day, isDay⟩ := d
  obtain ⟨⟨year', month', isMonth'⟩, day', isDay'⟩ := other
  cases isYear
  cases isMonthAndDay
  rfl

theorem exists_dayNumber (number : Int) : ∃ d : CalendarDay, d.dayNumber = number := by
  obtain ⟨months, isMonth, day, inMonth, split, -⟩ := Date.exists_ofDayNumber? number
  have isDay : 1 ≤ day + 1 ∧ day + 1 ≤ daysInMonth (Date.yearOf number) (months + 1) := by
    rw [daysInMonth_succ _ _ isMonth]
    omega
  rw [length_monthLengths] at isMonth
  refine ⟨⟨⟨Date.yearOf number, months + 1, by omega⟩, day + 1, isDay⟩, ?_⟩
  rw [dayNumber_eq]
  dsimp only
  rw [daysBeforeMonth_eq, Nat.add_sub_cancel, Nat.add_sub_cancel]
  exact split.symm

/-! ### Days that dates reach -/

/-- The date of a day, if dates reach it. -/
def toDate? (d : CalendarDay) : Option Date :=
  Date.ofFields? d.month.year d.month.month d.day

theorem ofDayNumber?_dayNumber (d : CalendarDay) : Date.ofDayNumber? d.dayNumber = d.toDate? :=
  Date.ofDayNumber?_eq_ofFields? d.isDay d.dayNumber_eq

/-- Dates reach the days of their years, and no others. -/
theorem toDate?_eq_some_iff {d : CalendarDay} {date : Date} :
    d.toDate? = some date ↔
      date.year = d.month.year ∧ date.month = d.month.month ∧ date.day = d.day :=
  Date.ofFields?_eq_some_iff

theorem exists_toDate? {d : CalendarDay}
    (reached : firstYear ≤ d.month.year ∧ d.month.year ≤ lastYear) :
    ∃ date, d.toDate? = some date :=
  ⟨⟨d.month.year, d.month.month, d.day, reached, d.isDay⟩, toDate?_eq_some_iff.mpr ⟨rfl, rfl, rfl⟩⟩

theorem toDate?_eq_none {d : CalendarDay}
    (beyond : ¬ (firstYear ≤ d.month.year ∧ d.month.year ≤ lastYear)) : d.toDate? = none :=
  dif_neg fun isDate => beyond isDate.1

/-- A date is a day of the calendar. -/
theorem exists_of_date (date : Date) : ∃ d : CalendarDay, d.toDate? = some date := by
  have isMonth : 1 ≤ date.month ∧ date.month ≤ 12 := by
    refine ⟨Nat.pos_of_ne_zero fun none => ?_, date.month_le⟩
    obtain ⟨-, positive, within⟩ := date.exists_day
    rw [daysInMonth, if_pos none] at within
    omega
  exact ⟨⟨⟨date.year, date.month, isMonth⟩, date.day, date.exists_day.2⟩,
    toDate?_eq_some_iff.mpr ⟨rfl, rfl, rfl⟩⟩

theorem dayNumber_of_toDate? {d : CalendarDay} {date : Date} (isDate : d.toDate? = some date) :
    date.dayNumber = d.dayNumber := by
  rw [← ofDayNumber?_dayNumber, Date.ofDayNumber?_eq_some_iff] at isDate
  exact isDate

/-! ### Distances -/

/-- The other day is a number of days away. -/
def DaysAway (start : CalendarDay) (days : Int) (other : CalendarDay) : Prop :=
  StepsAway next start days other

/-- A day of a month stays in the month, or, where the month is too short, spills into the month
behind it. -/
def FallsOn (target : CalendarMonth) (day : Nat) (other : CalendarDay) : Prop :=
  (day ≤ target.length ∧ other.month = target ∧ other.day = day) ∨
    (target.length < day ∧ other.month = target.next ∧ other.day = day - target.length)

/-- The other day is a number of months away: the same day of the month falls on it. -/
def MonthsAway (start : CalendarDay) (months : Int) (other : CalendarDay) : Prop :=
  ∃ target, StepsAway CalendarMonth.next start.month months target ∧
    FallsOn target start.day other

/-- The other day is a number of units away. -/
def IsAway (start : CalendarDay) (amount : Int) : TimeUnit → CalendarDay → Prop
  | .day => DaysAway start amount
  | .week => DaysAway start (amount * 7)
  | .month => MonthsAway start amount
  | .year => MonthsAway start (amount * 12)

section Distances

variable {start other : CalendarDay}

theorem daysAway_iff {days : Int} :
    DaysAway start days other ↔ other.dayNumber = start.dayNumber + days :=
  stepsAway_iff dayNumber_next dayNumber_injective

/-- A day of a month falls on the day that is counted from the first day of the month. -/
theorem fallsOn_iff {target : CalendarMonth} : FallsOn target start.day other ↔
    other.dayNumber = target.start + (start.day - 1 : Nat) := by
  have isDay := start.isDay
  constructor
  · rintro (⟨-, isMonth, sameDay⟩ | ⟨short, isMonth, spilt⟩)
    · rw [dayNumber, isMonth, sameDay]
    · rw [dayNumber, isMonth, spilt, CalendarMonth.start_next]
      omega
  · intro number
    by_cases fits : start.day ≤ target.length
    · obtain rfl : other = ⟨target, start.day, isDay.1, fits⟩ := dayNumber_injective number
      exact Or.inl ⟨fits, rfl, rfl⟩
    · have within : start.day - target.length ≤ target.next.length := by
        have long := target.le_length
        have longNext := target.next.le_length
        have short := start.month.length_le
        omega
      have spilt : other = ⟨target.next, start.day - target.length, by omega, within⟩ := by
        refine dayNumber_injective (number.trans ?_)
        rw [dayNumber, CalendarMonth.start_next]
        dsimp only
        omega
      rw [spilt]
      exact Or.inr ⟨by omega, rfl, rfl⟩

theorem monthsAway_iff {months : Int} : MonthsAway start months other ↔
    ∃ target : CalendarMonth, target.index = start.month.index + months ∧
      FallsOn target start.day other :=
  exists_congr fun _ => and_congr_left' (stepsAway_iff CalendarMonth.index_next
    CalendarMonth.index_injective)

theorem existsUnique_daysAway (start : CalendarDay) (days : Int) :
    ∃! other, DaysAway start days other := by
  obtain ⟨other, isOther⟩ := exists_dayNumber (start.dayNumber + days)
  refine ⟨other, daysAway_iff.mpr isOther, fun another away => ?_⟩
  exact dayNumber_injective ((daysAway_iff.mp away).trans isOther.symm)

theorem existsUnique_monthsAway (start : CalendarDay) (months : Int) :
    ∃! other, MonthsAway start months other := by
  obtain ⟨target, isTarget⟩ := CalendarMonth.exists_index (start.month.index + months)
  obtain ⟨other, isOther⟩ := exists_dayNumber (target.start + (start.day - 1 : Nat))
  refine ⟨other, monthsAway_iff.mpr ⟨target, isTarget, fallsOn_iff.mpr isOther⟩, ?_⟩
  intro another away
  obtain ⟨target', isTarget', isAnother⟩ := monthsAway_iff.mp away
  obtain rfl := CalendarMonth.index_injective (isTarget'.trans isTarget.symm)
  exact dayNumber_injective ((fallsOn_iff.mp isAnother).trans isOther.symm)

/-- **One day lies a distance away.** -/
theorem existsUnique_isAway (start : CalendarDay) (amount : Int) (unit : TimeUnit) :
    ∃! other, IsAway start amount unit other := by
  cases unit with
  | day => exact existsUnique_daysAway start amount
  | week => exact existsUnique_daysAway start (amount * 7)
  | month => exact existsUnique_monthsAway start amount
  | year => exact existsUnique_monthsAway start (amount * 12)

/-! ### The program finds the day -/

variable {date : Date}

theorem addDays?_eq (isDate : start.toDate? = some date) {days : Int}
    (away : DaysAway start days other) : date.addDays? days = other.toDate? := by
  rw [Date.addDays?, dayNumber_of_toDate? isDate, ← daysAway_iff.mp away, ofDayNumber?_dayNumber]

/-- A day that spills out of a month that dates do not reach is not reached either, since the last
month of a year is too long for that. -/
theorem toDate?_eq_none_of_fallsOn {target : CalendarMonth}
    (beyond : ¬ (firstYear ≤ target.year ∧ target.year ≤ lastYear))
    (falls : FallsOn target start.day other) : other.toDate? = none := by
  refine toDate?_eq_none ?_
  rcases falls with ⟨-, isMonth, -⟩ | ⟨short, isMonth, -⟩
  · rwa [isMonth]
  · have inYear : target.month < 12 := by
      by_contra last
      have isMonth := target.isMonth
      have long := CalendarMonth.length_december (m := target) (by omega)
      have within := start.isDay.2.trans start.month.length_le
      omega
    rw [isMonth, CalendarMonth.next, dif_pos inYear]
    exact beyond

theorem addMonths?_eq (isDate : start.toDate? = some date) {months : Int}
    (away : MonthsAway start months other) : date.addMonths? months = other.toDate? := by
  obtain ⟨target, isTarget, falls⟩ := monthsAway_iff.mp away
  obtain ⟨sameYear, sameMonth, sameDay⟩ := toDate?_eq_some_iff.mp isDate
  have isMonth := start.month.isMonth
  have isMonth' := target.isMonth
  unfold CalendarMonth.index at isTarget
  have year : (date.year * 12 + ((date.month - 1 : Nat) : Int) + months) / 12 = target.year := by
    rw [sameYear, sameMonth]
    omega
  have month : ((date.year * 12 + ((date.month - 1 : Nat) : Int) + months) % 12).toNat + 1 =
      target.month := by
    rw [sameYear, sameMonth]
    omega
  have isFirst : Date.ofFields? target.year target.month 1 = (first target).toDate? := rfl
  unfold Date.addMonths?
  dsimp only
  rw [year, month, isFirst]
  by_cases reached : firstYear ≤ target.year ∧ target.year ≤ lastYear
  · obtain ⟨firstDate, found⟩ := exists_toDate? (d := first target) reached
    rw [found]
    refine addDays?_eq found (daysAway_iff.mpr ?_)
    rw [fallsOn_iff.mp falls, dayNumber_first, sameDay]
  · rw [toDate?_eq_none_of_fallsOn reached falls, toDate?_eq_none (d := first target) reached]

end Distances

end CalendarDay

/-- **The program finds the day that lies the distance away**, as far as dates reach. -/
theorem DateShift.target?_eq {shift : DateShift} {start other : CalendarDay} {date : Date}
    (fields : Date.ofFields? shift.year shift.month shift.day = some date)
    (isDate : start.toDate? = some date)
    (away : start.IsAway shift.amount shift.unit other) : shift.target? = other.toDate? := by
  unfold target?
  rw [fields]
  cases unit : shift.unit with
  | day =>
    rw [unit] at away
    exact CalendarDay.addDays?_eq isDate away
  | week =>
    rw [unit] at away
    exact CalendarDay.addDays?_eq isDate away
  | month =>
    rw [unit] at away
    exact CalendarDay.addMonths?_eq isDate away
  | year =>
    rw [unit] at away
    exact CalendarDay.addMonths?_eq isDate away

end Worksheet
