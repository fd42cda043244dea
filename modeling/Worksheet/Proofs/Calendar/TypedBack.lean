/-
**Typing a date back.**

A date on the sheet can be typed into another line with a distance behind it. A date shift starts at
a year of four digits. Years from 0 to 9999 are written so; of all other years, whose text has a
sign or more digits, the shift is found at the last four digits, and the date that is moved lies in
another year. Its day exists all the same, since leap years come again after 10000 years.

* `Date.reread` is the date that is found in the text of a date;
* `DateShift.find?_toText`: the shift found in a date with a distance behind it;
* `shiftedDate?_daysLater`: where a date with a number of days behind it leads;
* `shiftedDate?_daysLater_iff`: exactly for the years from 0 to 9999, and where dates end before the
  distance does, no other day is given than the one that many days later;
* `shiftedDate?_daysLater_tenThousand`: a date of the year 10000, which is taken for the year 0.
-/

import Worksheet.Proofs.Calendar.DayNumber
import Worksheet.Proofs.Calendar.Reading
import Worksheet.Proofs.Number.DecimalText
import Worksheet.Value

namespace Worksheet

/-! ### The year without its leading digits -/

/-- Leap years come again after 10000 years, forwards and backwards. -/
theorem isLeapYear_natAbs_mod (year : Int) :
    isLeapYear ((year.natAbs % 10000 : Nat) : Int) = isLeapYear year := by
  rw [Bool.eq_iff_iff, isLeapYear_iff, isLeapYear_iff]
  omega

theorem monthLengths_natAbs_mod (year : Int) :
    monthLengths ((year.natAbs % 10000 : Nat) : Int) = monthLengths year := by
  unfold monthLengths
  rw [isLeapYear_natAbs_mod]

namespace Date

/-- The date of the same month and day in the year that the last four digits name. -/
def reread (date : Date) : Date where
  year := (date.year.natAbs % 10000 : Nat)
  month := date.month
  day := date.day
  exists_day := by
    obtain ⟨-, positive, within⟩ := date.exists_day
    refine ⟨by unfold firstYear lastYear; omega, positive, ?_⟩
    unfold daysInMonth at within ⊢
    rwa [monthLengths_natAbs_mod]

/-- A date is read as itself in the years from 0 to 9999 and in no others. -/
theorem reread_eq_iff (date : Date) : date.reread = date ↔ 0 ≤ date.year ∧ date.year ≤ 9999 := by
  constructor
  · intro same
    have year : ((date.year.natAbs % 10000 : Nat) : Int) = date.year := congrArg Date.year same
    omega
  · rintro ⟨notBelow, notAbove⟩
    have year : ((date.year.natAbs % 10000 : Nat) : Int) = date.year := by omega
    obtain ⟨y, m, d, isDate⟩ := date
    unfold reread
    congr

end Date

namespace DateShift

/-! ### Digits -/

/-- The digits of a year end in four digits that name its remainder. -/
theorem exists_lastFour (n : Nat) :
    ∃ leading lastFour : Text, Text.zeroPadded 4 n = leading ++ lastFour ∧ lastFour.length = 4 ∧
      number lastFour = n % 10000 := by
  have digits := Decimal.isDigit_zeroPadded 4 n
  have value : number (Text.zeroPadded 4 n) = n := by
    unfold number Text.zeroPadded
    dsimp only
    rw [Nat.ofDigitChars_append, Nat.ofDigitChars_replicate_zero, Nat.mul_zero,
      Nat.ofDigitChars_ten_toDigits]
  have long : 4 ≤ (Text.zeroPadded 4 n).length := by
    unfold Text.zeroPadded
    dsimp only
    rw [List.length_append, List.length_replicate]
    omega
  generalize Text.zeroPadded 4 n = text at digits value long
  have split := (List.take_append_drop (text.length - 4) text).symm
  have length : (text.drop (text.length - 4)).length = 4 := by
    rw [List.length_drop]
    omega
  refine ⟨_, _, split, length, ?_⟩
  have small := number_lt fun c isIn => digits c (List.mem_of_mem_drop (i := text.length - 4) isIn)
  rw [split] at value
  unfold number at value small ⊢
  rw [Nat.ofDigitChars_append, Nat.ofDigitChars_eq_ofDigitChars_zero, length] at value
  rw [length] at small
  omega

theorem number_zeroPadded {width n : Nat} (fits : n < 10 ^ width) (positive : 0 < width) :
    number (Text.zeroPadded width n) = n := by
  unfold number
  rw [Decimal.ofDigitChars_zeroPadded width n 0 fits positive, Nat.mul_zero, Nat.zero_add]

/-! ### Where a date is found -/

/-- No date starts at digits that have four more behind them. -/
theorem find?_leading {leading lastFour : Text} (rest : Text)
    (digits : ∀ c ∈ leading ++ lastFour, c.isDigit = true) (four : lastFour.length = 4) :
    find? (leading ++ (lastFour ++ rest)) = find? (lastFour ++ rest) := by
  induction leading with
  | nil => rfl
  | cons c leading ih =>
    have others : ∀ d ∈ leading ++ lastFour, d.isDigit = true := fun d isIn =>
      digits d (List.mem_cons_of_mem _ isIn)
    rw [List.cons_append, find?_cons_of_readDate?_eq_none, ih others]
    cases read : readDate? (c :: (leading ++ (lastFour ++ rest))) with
    | none => rfl
    | some result =>
      -- The fifth character is one of the digits, and not a hyphen.
      obtain ⟨-, hyphen⟩ := getElem?_of_readDate? read
      have within : 3 < (leading ++ lastFour).length := by
        rw [List.length_append]
        omega
      rw [List.getElem?_cons_succ, ← List.append_assoc, List.getElem?_append_left within] at hyphen
      exact absurd (others '-' (List.mem_of_getElem? hyphen)) (by decide)

/-- The date at its own start, with its year reduced to four digits. -/
theorem readDate?_fields {lastFour : Text} {year month day : Nat} (rest : Text)
    (yearDigits : ∀ c ∈ lastFour, c.isDigit = true) (four : lastFour.length = 4)
    (value : number lastFour = year) (monthFits : month < 100) (dayFits : day < 100) :
    readDate? (lastFour ++
        ('-' :: Text.zeroPadded 2 month ++ '-' :: Text.zeroPadded 2 day ++ rest)) =
      some ((year, month, day), rest) := by
  have read := readDate?_digits rest yearDigits four
    (Decimal.isDigit_zeroPadded 2 month) (Decimal.length_zeroPadded monthFits (by decide))
    (Decimal.isDigit_zeroPadded 2 day) (Decimal.length_zeroPadded dayFits (by decide))
  rw [value, number_zeroPadded monthFits (by decide), number_zeroPadded dayFits (by decide)] at read
  rw [← read]
  simp

/-- **In a date with a distance behind it, the last four digits of the year are found.** -/
theorem find?_toText (date : Date) {rest behind : Text} {amount : Int} {unit : TimeUnit}
    (distance : readAmount? (Text.trimStart rest) = some (amount, behind))
    (inUnits : TimeUnit.atStart? (Text.trimStart behind) = some unit) :
    find? (date.toText ++ rest) =
      some ⟨date.year.natAbs % 10000, date.month, date.day, amount, unit⟩ := by
  obtain ⟨leading, lastFour, year, four, value⟩ := exists_lastFour date.year.natAbs
  have digits := Decimal.isDigit_zeroPadded 4 date.year.natAbs
  rw [year] at digits
  have lastDigits : ∀ c ∈ lastFour, c.isDigit = true := fun c isIn =>
    digits c (List.mem_append_right _ isIn)
  have read := readDate?_fields rest lastDigits four value
    (date.month_le.trans_lt (by decide)) (date.day_le.trans_lt (by decide))
  generalize fieldsText : '-' :: Text.zeroPadded 2 date.month ++
    '-' :: Text.zeroPadded 2 date.day ++ rest = fields at read
  have text : date.toText ++ rest = Date.yearText date.year ++ fields := by
    rw [← fieldsText]
    simp [Date.toText]
  have found : find? (lastFour ++ fields) =
      some ⟨date.year.natAbs % 10000, date.month, date.day, amount, unit⟩ := by
    have shift : atStart? (lastFour ++ fields) =
        some ⟨date.year.natAbs % 10000, date.month, date.day, amount, unit⟩ := by
      simp [atStart?, read, distance, inUnits]
    obtain ⟨c, others, nonempty⟩ := List.exists_cons_of_ne_nil
      (List.append_ne_nil_of_left_ne_nil (List.ne_nil_of_length_eq_add_one four) fields)
    rw [nonempty] at shift ⊢
    rw [find?, shift]
  have behindSign : find? (Text.zeroPadded 4 date.year.natAbs ++ fields) =
      some ⟨date.year.natAbs % 10000, date.month, date.day, amount, unit⟩ := by
    rw [year, List.append_assoc, find?_leading fields digits four, found]
  rw [text]
  unfold Date.yearText
  dsimp only
  split
  · rw [List.cons_append, find?_cons _ rfl, behindSign]
  · split
    · rw [List.cons_append, find?_cons _ rfl, behindSign]
    · exact behindSign

end DateShift

/-! ### A number of days behind a date -/

/-- What is typed for the day a number of days after a date. -/
def daysLater (date : Date) (days : Nat) : Text :=
  (Value.date date).toText ++ (" + ".toList ++ Nat.toDigits 10 days ++ " days".toList)

/-- White space, a sign, digits and a unit are read as the number of days. -/
theorem readAmount?_days (days : Nat) :
    DateShift.readAmount?
        (Text.trimStart (" + ".toList ++ Nat.toDigits 10 days ++ " days".toList)) =
      some ((days : Int), " days".toList) := by
  have digits := Decimal.isDigit_toDigits days
  have border : ∀ c ∈ " days".toList.head?, c.isDigit = false := by
    rintro c ⟨⟩
    rfl
  have value : DateShift.number (Nat.toDigits 10 days) = days := Nat.ofDigitChars_ten_toDigits
  have read := DateShift.readAmount?_digits false Text.isBlank_of_mem_space digits
    Nat.toDigits_ne_nil border
  rw [value] at read
  exact read

/-- **A date with a number of days behind it leads from the date of the last four digits of its
year.** -/
theorem shiftedDate?_daysLater (date : Date) (days : Nat) :
    shiftedDate? (daysLater date days) = date.reread.addDays? days := by
  have inDays : TimeUnit.atStart? (Text.trimStart " days".toList) = some .day := by decide
  have found := DateShift.find?_toText date (readAmount?_days days) inDays
  have fields : Date.ofFields? ((date.year.natAbs % 10000 : Nat) : Int) date.month date.day =
      some date.reread := Date.ofFields?_eq_some_iff.mpr ⟨rfl, rfl, rfl⟩
  unfold shiftedDate? daysLater Value.toText
  rw [found, Option.bind_some]
  unfold DateShift.target?
  rw [fields]

/-- **Which dates can be typed back.** A date of the years from 0 to 9999 with a number of days
behind it leads to the day that many days later, wherever dates reach it. Of all other dates this
holds only where dates end before the distance does, so that there is no answer. -/
theorem shiftedDate?_daysLater_iff (date : Date) (days : Nat) :
    (0 ≤ date.year ∧ date.year ≤ 9999 → ∀ later, shiftedDate? (daysLater date days) = some later ↔
      later.dayNumber = date.dayNumber + days) ∧
    ((∀ later, shiftedDate? (daysLater date days) = some later →
        later.dayNumber = date.dayNumber + days) ↔
      (0 ≤ date.year ∧ date.year ≤ 9999) ∨
        yearStart (lastYear + 1) ≤ date.reread.dayNumber + days) := by
  rw [shiftedDate?_daysLater]
  have asItself : 0 ≤ date.year ∧ date.year ≤ 9999 → ∀ later,
      date.reread.addDays? days = some later ↔ later.dayNumber = date.dayNumber + days := by
    intro fourDigits later
    rw [date.reread_eq_iff.mpr fourDigits, Date.addDays?_eq_some_iff]
  refine ⟨asItself, fun neverOther => ?_, ?_⟩
  · rw [or_iff_not_imp_right]
    intro reached
    have notBefore := ((Date.exists_dayNumber_iff date.reread.dayNumber).mp ⟨_, rfl⟩).1
    -- The day that is reached is the wanted one, so that the two dates that lead to it agree.
    obtain ⟨later, found⟩ := (Date.exists_addDays?_iff date.reread days).mpr
      ⟨by omega, not_le.mp reached⟩
    have wanted := neverOther later found
    rw [Date.addDays?_eq_some_iff] at found
    exact date.reread_eq_iff.mp (Date.dayNumber_injective (by omega))
  · rintro (fourDigits | beyond) later found
    · exact (asItself fourDigits later).mp found
    · obtain ⟨-, reached⟩ := (Date.exists_addDays?_iff date.reread days).mp ⟨later, found⟩
      omega

/-- New Year of the year 10000 is taken for New Year of the year 0. -/
theorem shiftedDate?_daysLater_tenThousand :
    ∃ tenThousand misread : Date, tenThousand.toText = "+10000-01-01".toList ∧
      misread.toText = "0000-01-02".toList ∧
      daysLater tenThousand 1 = "+10000-01-01 + 1 days".toList ∧
      shiftedDate? (daysLater tenThousand 1) = some misread ∧
      misread.dayNumber ≠ tenThousand.dayNumber + (1 : Nat) :=
  ⟨⟨10000, 1, 1, by decide⟩, ⟨0, 1, 2, by decide⟩, by decide, by decide, by decide,
    by decide +kernel, by decide⟩

end Worksheet
