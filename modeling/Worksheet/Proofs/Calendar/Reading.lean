/-
**Reading a date and a distance.**

A date starts with a digit, so that text without digits in front of it is passed over. Behind the
date the parts of the distance are read as they are written, whatever white space stands between
them and whatever comes behind the unit.

* `DateShift.readDate?_digits`, `DateShift.readAmount?_digits` and `TimeUnit.atStart?_append` read
  the parts;
* `DateShift.find?_append` passes over the text in front;
* `shiftedDate?_append_blank`: white space behind the text changes nothing.
-/

import Mathlib
import Worksheet.Calendar.DateShift
import Worksheet.Proofs.Text.WhiteSpace

namespace Worksheet

/-! ### Units -/

namespace TimeUnit

variable {spelled : Text}

/-- A text starts with a word that it spells in any case. -/
theorem startsWith_append {word : Text} (same : spelled.map Char.toLower = word) (behind : Text) :
    startsWith (spelled ++ behind) word = true := by
  induction spelled generalizing word with
  | nil =>
    cases same
    rw [List.map_nil, startsWith]
  | cons c rest ih =>
    cases same
    rw [List.cons_append, List.map_cons, startsWith, ih rfl, sameLetter]
    simp

/-- Units start with different letters. -/
theorem startsWith_eq_false {unit other : TimeUnit} (ne : other ≠ unit)
    (same : spelled.map Char.toLower = unit.spelling) (behind : Text) :
    startsWith (spelled ++ behind) other.spelling = false := by
  cases spelled with
  | nil => cases unit <;> cases same
  | cons c rest =>
    have first : some c.toLower = unit.spelling.head? := by
      rw [← same, List.map_cons, List.head?_cons]
    cases unit <;> cases other <;> simp_all [startsWith, sameLetter, spelling]

/-- A unit is read in any case of its letters, whatever stands behind it. -/
theorem atStart?_append {unit : TimeUnit} (same : spelled.map Char.toLower = unit.spelling)
    (behind : Text) : atStart? (spelled ++ behind) = some unit := by
  have found : [day, week, month, year].find? (fun other =>
      startsWith (spelled ++ behind) other.spelling) = some unit := by
    have itself := startsWith_append same behind
    have others (other : TimeUnit) (ne : other ≠ unit) := startsWith_eq_false ne same behind
    cases unit <;> simp [List.find?, itself, others]
  have length : unit.spelling.length = spelled.length := by
    rw [← same, List.length_map]
  rw [atStart?, found]
  dsimp only
  rw [length, List.take_left, same, if_pos (beq_self_eq_true _)]

/-- Units are spelled in lower case. -/
theorem isLower_spelling (unit : TimeUnit) : ∀ c ∈ unit.spelling, c.isLower = true := by
  cases unit <;> exact List.all_eq_true.mp (by decide)

/-- White space is no letter of a word. -/
theorem isBlank_eq_false_of_sameLetter {c letter : Char} (lower : letter.isLower = true)
    (same : sameLetter c letter = true) : Text.isBlank c = false := by
  unfold sameLetter at same
  rw [Bool.or_eq_true, Bool.and_eq_true, beq_iff_eq, beq_iff_eq, beq_iff_eq] at same
  rcases same with rfl | ⟨-, rfl⟩
  · rw [Char.isLower_toLower_eq_isAlpha] at lower
    exact Text.isBlank_eq_false_of_isAlpha lower
  · rfl

theorem length_le_of_startsWith {text word : Text} (starts : startsWith text word = true) :
    word.length ≤ text.length := by
  induction word generalizing text with
  | nil => exact Nat.zero_le _
  | cons letter word ih =>
    cases text with
    | nil => cases starts
    | cons c rest =>
      rw [startsWith, Bool.and_eq_true] at starts
      exact Nat.succ_le_succ (ih starts.2)

section Behind

variable {tail : Text} (tailBlank : ∀ c ∈ tail, Text.isBlank c = true)

include tailBlank

/-- A word is not continued by white space. -/
theorem startsWith_append_blank (text : Text) {word : Text}
    (lower : ∀ c ∈ word, c.isLower = true) :
    startsWith (text ++ tail) word = startsWith text word := by
  induction text generalizing word with
  | nil =>
    cases word with
    | nil => simp [startsWith]
    | cons letter word =>
      cases tail with
      | nil => rfl
      | cons c others =>
        have noLetter : sameLetter c letter = false := by
          rw [← Bool.not_eq_true]
          intro same
          have blank := tailBlank c List.mem_cons_self
          rw [isBlank_eq_false_of_sameLetter (lower letter List.mem_cons_self) same] at blank
          cases blank
        rw [List.nil_append, startsWith, startsWith, noLetter, Bool.false_and]
  | cons c rest ih =>
    cases word with
    | nil => simp [startsWith]
    | cons letter word =>
      rw [List.forall_mem_cons] at lower
      rw [List.cons_append, startsWith, startsWith, ih lower.2]

/-- The unit at the start of a text is the same with white space behind the text. -/
theorem atStart?_append_blank (text : Text) : atStart? (text ++ tail) = atStart? text := by
  unfold atStart?
  simp only [startsWith_append_blank tailBlank text (isLower_spelling _)]
  cases found : [day, week, month, year].find? fun unit => startsWith text unit.spelling with
  | none => rfl
  | some unit =>
    have starts := List.find?_some found
    dsimp only
    rw [List.take_append_of_le_length (length_le_of_startsWith starts)]

end Behind

end TimeUnit

namespace DateShift

/-! ### Dates -/

theorem number_lt {digits : Text} (isDigit : ∀ c ∈ digits, c.isDigit = true) :
    number digits < 10 ^ digits.length := by
  unfold number
  induction digits with
  | nil => decide
  | cons c digits ih =>
    have small := (Char.isDigit_iff_toNat.mp (isDigit c List.mem_cons_self)).2
    have rest := ih fun d isIn => isDigit d (List.mem_cons_of_mem _ isIn)
    have digit : c.toNat - '0'.toNat ≤ 9 := by
      have nine : '9'.toNat = '0'.toNat + 9 := rfl
      omega
    have shifted := Nat.mul_le_mul_left (10 ^ digits.length) digit
    rw [Nat.ofDigitChars_cons, Nat.mul_zero, Nat.zero_add, Nat.ofDigitChars_eq_ofDigitChars_zero,
      List.length_cons, Nat.pow_succ]
    omega

/-- A date has four digits and then a hyphen. -/
theorem getElem?_of_readDate? {text rest : Text} {fields : Nat × Nat × Nat}
    (read : readDate? text = some (fields, rest)) :
    (∃ c, text[0]? = some c ∧ c.isDigit = true) ∧ text[4]? = some '-' := by
  unfold readDate? at read
  split at read
  · split at read
    · rename_i digits
      simp only [List.all_cons, Bool.and_eq_true] at digits
      exact ⟨⟨_, rfl, digits.1⟩, rfl⟩
    · cases read
  · cases read

/-- Digits of a date are read with the hyphens between them. -/
theorem readDate?_digits {year month day : Text} (rest : Text)
    (yearDigits : ∀ c ∈ year, c.isDigit = true) (fourDigits : year.length = 4)
    (monthDigits : ∀ c ∈ month, c.isDigit = true) (twoDigits : month.length = 2)
    (dayDigits : ∀ c ∈ day, c.isDigit = true) (twoDigits' : day.length = 2) :
    readDate? (year ++ '-' :: (month ++ '-' :: (day ++ rest))) =
      some ((number year, number month, number day), rest) := by
  obtain ⟨y₁, y₂, y₃, y₄, rfl⟩ := List.length_eq_four.mp fourDigits
  obtain ⟨m₁, m₂, rfl⟩ := List.length_eq_two.mp twoDigits
  obtain ⟨d₁, d₂, rfl⟩ := List.length_eq_two.mp twoDigits'
  have digits : [y₁, y₂, y₃, y₄, m₁, m₂, d₁, d₂].all Char.isDigit = true := by
    simp only [List.forall_mem_cons, List.not_mem_nil, false_implies, implies_true, and_true]
      at yearDigits monthDigits dayDigits
    simp [yearDigits, monthDigits, dayDigits]
  simp only [List.cons_append, List.nil_append, readDate?]
  rw [if_pos digits]

/-- A date is ten characters that are no white space, and is read whatever stands behind them. -/
theorem exists_of_readDate? {text rest : Text} {fields : Nat × Nat × Nat}
    (read : readDate? text = some (fields, rest)) :
    ∃ date : Text, (∀ behind, readDate? (date ++ behind) = some (fields, behind)) ∧
      (∀ c ∈ date, Text.isBlank c = false) ∧ text = date ++ rest := by
  unfold readDate? at read
  split at read
  · rename_i y₁ y₂ y₃ y₄ m₁ m₂ d₁ d₂ rest
    split at read
    · rename_i digits
      cases read
      refine ⟨[y₁, y₂, y₃, y₄, '-', m₁, m₂, '-', d₁, d₂], fun behind => if_pos digits, ?_, rfl⟩
      intro c isIn
      have kind : c ∈ [y₁, y₂, y₃, y₄, m₁, m₂, d₁, d₂] ∨ c = '-' := by
        simp only [List.mem_cons, List.not_mem_nil, or_false] at isIn ⊢
        tauto
      rcases kind with isDigit | rfl
      · exact Text.isBlank_eq_false_of_isWordPart c
          (Text.isWordPart_of_isDigit c (List.all_eq_true.mp digits c isDigit))
      · rfl
    · cases read
  · cases read

theorem find?_cons_of_readDate?_eq_none {c : Char} {rest : Text}
    (noDate : readDate? (c :: rest) = none) : find? (c :: rest) = find? rest := by
  have noShift : atStart? (c :: rest) = none := by simp [atStart?, noDate]
  rw [find?, noShift]

/-- No date starts at a character that is no digit. -/
theorem find?_cons {c : Char} (rest : Text) (noDigit : c.isDigit = false) :
    find? (c :: rest) = find? rest := by
  refine find?_cons_of_readDate?_eq_none ?_
  cases read : readDate? (c :: rest) with
  | none => rfl
  | some result =>
    obtain ⟨⟨d, first, isDigit⟩, -⟩ := getElem?_of_readDate? read
    rw [List.getElem?_cons_zero, Option.some.injEq] at first
    rw [← first, noDigit] at isDigit
    cases isDigit

/-- Text without digits in front is passed over. -/
theorem find?_append {before : Text} (noDigit : ∀ c ∈ before, c.isDigit = false) (rest : Text) :
    find? (before ++ rest) = find? rest := by
  induction before with
  | nil => rfl
  | cons c others ih =>
    rw [List.forall_mem_cons] at noDigit
    rw [List.cons_append, find?_cons _ noDigit.1, ih noDigit.2]

/-! ### Distances -/

/-- Digits with a sign in front, and white space between them, are read as far as they go. -/
theorem readAmount?_digits (backwards : Bool) {gap digits rest : Text}
    (gapBlank : ∀ c ∈ gap, Text.isBlank c = true) (isDigit : ∀ c ∈ digits, c.isDigit = true)
    (nonempty : digits ≠ []) (border : ∀ c ∈ rest.head?, c.isDigit = false) :
    readAmount? ((bif backwards then '-' else '+') :: (gap ++ (digits ++ rest))) =
      some (bif backwards then -(number digits : Int) else number digits, rest) := by
  have noBlank : ∀ c ∈ digits, Text.isBlank c = false := fun c isIn =>
    Text.isBlank_eq_false_of_isWordPart c (Text.isWordPart_of_isDigit c (isDigit c isIn))
  have start := Text.forall_head?_of_forall_mem nonempty noBlank rest
  have some : digits.isEmpty = false := List.isEmpty_eq_false_iff.mpr nonempty
  simp only [readAmount?, Text.trimStart_append gapBlank start, some,
    Text.takeWhile_append isDigit border, Text.dropWhile_append isDigit border]
  cases backwards <;> rfl

/-! ### White space behind the text -/

section Behind

variable {tail : Text} (tailBlank : ∀ c ∈ tail, Text.isBlank c = true)

include tailBlank

theorem readDate?_append_blank (text : Text) :
    readDate? (text ++ tail) = (readDate? text).map (Prod.map id (· ++ tail)) := by
  ext ⟨fields, rest⟩
  rw [Option.map_eq_some_iff]
  constructor
  · intro read
    obtain ⟨date, isDate, noBlank, whole⟩ := exists_of_readDate? read
    obtain ⟨between, rfl, rfl⟩ := Text.exists_of_append_eq tailBlank noBlank whole
    exact ⟨(fields, between), isDate between, rfl⟩
  · rintro ⟨⟨fields, between⟩, read, same⟩
    cases same
    obtain ⟨date, isDate, -, rfl⟩ := exists_of_readDate? read
    rw [List.append_assoc]
    exact isDate (between ++ tail)

theorem readAmount?_append_blank (text : Text) :
    readAmount? (text ++ tail) = (readAmount? text).map (Prod.map id (· ++ tail)) := by
  have border := Text.border_of_isBlank tailBlank Text.isDigit_eq_false_of_isBlank
  cases text with
  | nil =>
    cases tail with
    | nil => rfl
    | cons c others =>
      have noSign (sign : Char) (notBlank : Text.isBlank sign = false) : (c == sign) = false := by
        rw [beq_eq_false_iff_ne]
        rintro rfl
        rw [tailBlank c List.mem_cons_self] at notBlank
        cases notBlank
      simp [readAmount?, noSign '+' rfl, noSign '-' rfl]
  | cons sign rest =>
    rw [List.cons_append, readAmount?, readAmount?]
    rcases Text.trimStart_append_cases tailBlank rest with ⟨nothing, nothing'⟩ | ⟨-, split⟩
    · rw [nothing, nothing']
      rfl
    · rw [split, Text.takeWhile_append_left border, Text.dropWhile_append_left border]
      split
      · rfl
      · split
        · rfl
        · split <;> rfl

/-- The date and distance at the start of a text are the same with white space behind the text. -/
theorem atStart?_append_blank (text : Text) : atStart? (text ++ tail) = atStart? text := by
  have amount := Text.read_trimStart_append tailBlank (show readAmount? [] = none from rfl)
    (readAmount?_append_blank tailBlank)
  have unit := Text.read_trimStart_append tailBlank (show TimeUnit.atStart? [] = none from rfl)
    fun text => (TimeUnit.atStart?_append_blank tailBlank text).trans Option.map_id_apply.symm
  unfold atStart?
  rw [readDate?_append_blank tailBlank]
  simp only [Option.bind_eq_bind, Option.bind_map, Function.comp_def, Prod.map, amount, unit]
  rfl

/-- White space behind a text holds no date, and ends none. -/
theorem find?_append_blank (text : Text) : find? (text ++ tail) = find? text := by
  induction text with
  | nil =>
    have noDigit : ∀ c ∈ tail, c.isDigit = false := fun c isIn =>
      Text.isDigit_eq_false_of_isBlank (tailBlank c isIn)
    have passed := find?_append noDigit []
    rwa [List.append_nil] at passed
  | cons c rest ih =>
    rw [List.cons_append, find?, find?, ← List.cons_append, atStart?_append_blank tailBlank, ih]

end Behind

end DateShift

theorem shiftedDate?_append_blank {tail : Text} (tailBlank : ∀ c ∈ tail, Text.isBlank c = true)
    (text : Text) : shiftedDate? (text ++ tail) = shiftedDate? text := by
  rw [shiftedDate?, DateShift.find?_append_blank tailBlank, shiftedDate?]

end Worksheet
