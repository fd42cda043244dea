/-
**Where percentages are found.**

A form of percentage is an operand, a sign and a second operand, with white space between them, and
the sign of a share is followed by a word. This is said here without reading; the reader of a form
finds what is written so and nothing else. So a form is not found in a text that lacks one of its
marks, and not where something else than white space stands between a numeral and the sign.

* `IsOperand` and `PercentForm.behind` say what is written;
* `exists_of_operands?` and `operands?_behind`: what is found is written, and is found again;
* `spellOutPercentages_eq_self`: a text without a percent sign is left as it is.
-/

import Worksheet.Percent
import Worksheet.Proofs.Number.Numeral
import Worksheet.Proofs.Text.WhiteSpace

namespace Worksheet

/-! ### Operands -/

/-- Digits with or without a point in front of the last of them. -/
def IsOperand (text : Text) : Prop :=
  ∃ whole point fraction : Text, text = whole ++ (point ++ fraction) ∧
    (∀ c ∈ whole, c.isDigit = true) ∧ (point = [] ∨ point = ['.']) ∧
    (∀ c ∈ fraction, c.isDigit = true) ∧ fraction ≠ []

theorem isOperand_digits {digits : Text} (isDigit : ∀ c ∈ digits, c.isDigit = true)
    (nonempty : digits ≠ []) : IsOperand digits :=
  ⟨[], [], digits, rfl, List.forall_mem_nil _, Or.inl rfl, isDigit, nonempty⟩

theorem IsOperand.isNumeralPart {text : Text} (operand : IsOperand text) :
    ∀ c ∈ text, Token.isNumeralPart c = true := by
  obtain ⟨whole, point, fraction, rfl, inWhole, isPoint, inFraction, -⟩ := operand
  intro c isIn
  unfold Token.isNumeralPart
  rw [List.mem_append, List.mem_append] at isIn
  rcases isIn with isIn | isIn | isIn
  · rw [inWhole c isIn, Bool.true_or]
  · rcases isPoint with rfl | rfl
    · cases isIn
    · cases List.mem_singleton.mp isIn
      rfl
  · rw [inFraction c isIn, Bool.true_or]

theorem IsOperand.ne_nil {text : Text} (operand : IsOperand text) : text ≠ [] := by
  obtain ⟨whole, point, fraction, rfl, -, -, -, nonempty⟩ := operand
  exact List.append_ne_nil_of_right_ne_nil _ (List.append_ne_nil_of_right_ne_nil _ nonempty)

/-- An operand is a numeral. -/
theorem IsOperand.exists_numeral {text : Text} (operand : IsOperand text) :
    ∃ numeral : Numeral, numeral.digits = text := by
  refine ⟨⟨text, operand.isNumeralPart, ?_, ?_⟩, rfl⟩
  · obtain ⟨whole, point, fraction, rfl, -, -, inFraction, nonempty⟩ := operand
    obtain ⟨c, others, rfl⟩ := List.exists_cons_of_ne_nil nonempty
    exact ⟨c, by simp, inFraction c List.mem_cons_self⟩
  · obtain ⟨whole, point, fraction, rfl, inWhole, isPoint, inFraction, -⟩ := operand
    have single : point.count '.' ≤ 1 := by rcases isPoint with rfl | rfl <;> decide
    rw [List.count_append, List.count_append, Decimal.count_point_eq_zero inWhole,
      Decimal.count_point_eq_zero inFraction]
    omega

/-- The longest numeral at the start of a text is an operand. -/
theorem exists_of_takeNumeral? {text first rest : Text}
    (taken : takeNumeral? text = some (first, rest)) : IsOperand first ∧ text = first ++ rest := by
  have whole : ∀ c ∈ text.takeWhile Char.isDigit, c.isDigit = true := fun c isIn =>
    List.all_eq_true.mp List.all_takeWhile c isIn
  have split := (List.takeWhile_append_dropWhile (p := Char.isDigit) (l := text)).symm
  have plain (isPlain : (if (text.takeWhile Char.isDigit).isEmpty then none
      else some (text.takeWhile Char.isDigit, text.dropWhile Char.isDigit)) = some (first, rest)) :
      IsOperand first ∧ text = first ++ rest := by
    split at isPlain
    · cases isPlain
    · rename_i nonempty
      cases isPlain
      exact ⟨isOperand_digits whole (by simpa using nonempty), split⟩
  unfold takeNumeral? at taken
  dsimp only at taken
  split at taken
  next behind point =>
    split at taken
    next => exact plain (point ▸ taken)
    next nonempty =>
      cases taken
      refine ⟨⟨_, ['.'], behind.takeWhile Char.isDigit, rfl, whole, Or.inr rfl,
        fun c isIn => List.all_eq_true.mp List.all_takeWhile c isIn, by simpa using nonempty⟩, ?_⟩
      rw [List.append_assoc, List.cons_append, List.takeWhile_append_dropWhile, ← point, ← split]
  next => exact plain taken

/-- An operand that nothing behind it continues is taken as a whole. -/
theorem IsOperand.takeNumeral?_append {first rest : Text} (operand : IsOperand first)
    (border : ∀ c ∈ rest.head?, Token.isNumeralPart c = false) :
    takeNumeral? (first ++ rest) = some (first, rest) := by
  have behind : ∀ c ∈ rest.head?, c.isDigit = false ∧ c ≠ '.' := by
    intro c isHead
    have noPart := border c isHead
    rw [Token.isNumeralPart, Bool.or_eq_false_iff, beq_eq_false_iff_ne] at noPart
    exact noPart
  have taken {digits : Text} (isDigit : ∀ c ∈ digits, c.isDigit = true) :
      (digits ++ rest).takeWhile Char.isDigit = digits ∧
        (digits ++ rest).dropWhile Char.isDigit = rest := by
    rw [List.takeWhile_append_of_pos isDigit, List.dropWhile_append_of_pos isDigit]
    cases rest with
    | nil => exact ⟨List.append_nil _, rfl⟩
    | cons c others =>
      have noDigit := (behind c rfl).1
      rw [List.takeWhile_cons_of_neg (by simp [noDigit]), List.append_nil,
        List.dropWhile_cons_of_neg (by simp [noDigit])]
      exact ⟨rfl, rfl⟩
  obtain ⟨whole, point, fraction, rfl, inWhole, rfl | rfl, inFraction, nonempty⟩ := operand
  · have digits : ∀ c ∈ whole ++ ([] ++ fraction), c.isDigit = true :=
      List.forall_mem_append.mpr ⟨inWhole, inFraction⟩
    obtain ⟨front, back⟩ := taken digits
    unfold takeNumeral?
    rw [front, back]
    dsimp only
    split
    · exact absurd rfl (behind '.' rfl).2
    · rw [if_neg (by simp [nonempty])]
  · obtain ⟨front, back⟩ := taken inFraction
    have start : (whole ++ '.' :: (fraction ++ rest)).takeWhile Char.isDigit = whole := by
      rw [List.takeWhile_append_of_pos inWhole]
      simp
    have later : (whole ++ '.' :: (fraction ++ rest)).dropWhile Char.isDigit =
        '.' :: (fraction ++ rest) := by
      rw [List.dropWhile_append_of_pos inWhole]
      rfl
    rw [List.append_assoc, List.append_assoc, List.singleton_append]
    unfold takeNumeral?
    rw [start, later]
    show (if ((fraction ++ rest).takeWhile Char.isDigit).isEmpty then _ else
      some (whole ++ '.' :: (fraction ++ rest).takeWhile Char.isDigit,
        (fraction ++ rest).dropWhile Char.isDigit)) = _
    rw [front, back, if_neg (by simpa using nonempty)]
    rfl

/-! ### Signs and white space -/

theorem dropExact?_eq_some_iff {beginning text rest : Text} :
    dropExact? beginning text = some rest ↔ text = beginning ++ rest := by
  unfold dropExact?
  constructor
  · intro dropped
    split at dropped
    · rename_i isPrefix
      cases dropped
      obtain ⟨rest, rfl⟩ := List.isPrefixOf_iff_prefix.mp isPrefix
      rw [List.drop_left]
    · cases dropped
  · rintro rfl
    rw [if_pos (List.isPrefixOf_iff_prefix.mpr (List.prefix_append _ _)), List.drop_left]

theorem IsOperand.isBlank_head? {text : Text} (operand : IsOperand text) (rest : Text) :
    ∀ c ∈ (text ++ rest).head?, Text.isBlank c = false :=
  Text.forall_head?_of_forall_mem operand.ne_nil
    (fun c isIn => Text.isBlank_eq_false_of_isNumeralPart (operand.isNumeralPart c isIn)) rest

/-! ### Forms as they are written -/

/-- The white space in a form: before its sign, behind it, and behind the word of a share. -/
structure Spacing where
  before : Text
  between : Text
  after : Text
  before_blank : ∀ c ∈ before, Text.isBlank c = true
  between_blank : ∀ c ∈ between, Text.isBlank c = true
  after_blank : ∀ c ∈ after, Text.isBlank c = true

namespace PercentForm

/-- The sign behind the first operand. -/
def sign : PercentForm → Char
  | share => '%'
  | increase => '+'
  | decrease => '-'

/-- What is written behind the first operand of the form. -/
def behind (form : PercentForm) (spacing : Spacing) (second : Text) : Text :=
  spacing.before ++ form.sign :: (spacing.between ++
    match form with
    | share => "of".toList ++ (spacing.after ++ second)
    | increase => second ++ ['%']
    | decrease => second ++ ['%'])

/-- The characters that the form has beside its operands. -/
def marks : PercentForm → Text
  | share => "%of".toList
  | increase => "+%".toList
  | decrease => "-%".toList

theorem marks_subset_behind (form : PercentForm) (spacing : Spacing) (second : Text) :
    form.marks ⊆ form.behind spacing second := by
  cases form <;> simp [marks, behind, sign]

/-- What is found behind the first operand of an increase or a decrease. -/
theorem exists_of_signed {sign : Char} {text first taken second rest : Text}
    (found : (do
      let rest ← dropExact? [sign] (Text.trimStart text)
      let (second, rest) ← takeNumeral? (Text.trimStart rest)
      let rest ← dropExact? ['%'] rest
      return (taken, second, rest)) = some (first, second, rest)) :
    taken = first ∧ IsOperand second ∧ ∃ before between, (∀ c ∈ before, Text.isBlank c = true) ∧
      (∀ c ∈ between, Text.isBlank c = true) ∧
        text = before ++ sign :: (between ++ (second ++ '%' :: rest)) := by
  simp only [Option.bind_eq_bind, Option.bind_eq_some_iff, dropExact?_eq_some_iff] at found
  obtain ⟨behindSign, isSign, ⟨other, behindSecond⟩, isSecond, behindForm, percent, last⟩ := found
  obtain ⟨secondOperand, behindBetween⟩ := exists_of_takeNumeral? isSecond
  obtain ⟨before, beforeBlank, split⟩ := Text.exists_trimStart text
  obtain ⟨between, betweenBlank, splitSign⟩ := Text.exists_trimStart behindSign
  dsimp only at percent
  cases last
  refine ⟨rfl, secondOperand, before, between, beforeBlank, betweenBlank, ?_⟩
  rw [split, isSign, splitSign, behindBetween, percent]
  simp

/-- What is written behind the first operand of an increase or a decrease is found. -/
theorem signed_behind {sign : Char} (taken : Text) (spacing : Spacing) {second : Text}
    (noBlank : Text.isBlank sign = false) (operand : IsOperand second) :
    (do
      let rest ← dropExact? [sign]
        (Text.trimStart (spacing.before ++ sign :: (spacing.between ++ (second ++ ['%']))))
      let (second, rest) ← takeNumeral? (Text.trimStart rest)
      let rest ← dropExact? ['%'] rest
      return (taken, second, rest)) = some (taken, second, []) := by
  have behindBefore : Text.trimStart
      (spacing.before ++ sign :: (spacing.between ++ (second ++ ['%']))) =
        sign :: (spacing.between ++ (second ++ ['%'])) :=
    Text.trimStart_append spacing.before_blank (by rintro c ⟨⟩; exact noBlank)
  have isSign : dropExact? [sign] (sign :: (spacing.between ++ (second ++ ['%']))) =
      some (spacing.between ++ (second ++ ['%'])) := dropExact?_eq_some_iff.mpr rfl
  have behindBetween := Text.trimStart_append spacing.between_blank
    (operand.isBlank_head? ['%'])
  have isSecond : takeNumeral? (second ++ ['%']) = some (second, ['%']) :=
    operand.takeNumeral?_append (by rintro c ⟨⟩; rfl)
  simp only [Option.bind_eq_bind, behindBefore, isSign, Option.bind_some, behindBetween, isSecond]
  rfl

/-- **What is found of a form is written in the text.** -/
theorem exists_of_operands? {form : PercentForm} {text first second rest : Text}
    (found : form.operands? text = some (first, second, rest)) :
    IsOperand first ∧ IsOperand second ∧
      ∃ spacing, text = first ++ (form.behind spacing second ++ rest) := by
  unfold operands? at found
  rw [Option.bind_eq_bind, Option.bind_eq_some_iff] at found
  obtain ⟨⟨taken, behindFirst⟩, isTaken, found⟩ := found
  obtain ⟨firstOperand, rfl⟩ := exists_of_takeNumeral? isTaken
  cases form with
  | share =>
    simp only [Option.bind_eq_bind, Option.bind_eq_some_iff, dropExact?_eq_some_iff] at found
    obtain ⟨behindSign, percent, behindWord, word, ⟨other, behindSecond⟩, isSecond, last⟩ := found
    obtain ⟨secondOperand, behindAfter⟩ := exists_of_takeNumeral? isSecond
    obtain ⟨before, beforeBlank, split⟩ := Text.exists_trimStart behindFirst
    obtain ⟨between, betweenBlank, splitSign⟩ := Text.exists_trimStart behindSign
    obtain ⟨after, afterBlank, splitWord⟩ := Text.exists_trimStart behindWord
    cases last
    refine ⟨firstOperand, secondOperand,
      ⟨before, between, after, beforeBlank, betweenBlank, afterBlank⟩, ?_⟩
    rw [split, percent, splitSign, word, splitWord, behindAfter]
    simp [behind, sign]
  | increase =>
    obtain ⟨rfl, secondOperand, before, between, beforeBlank, betweenBlank, rfl⟩ :=
      exists_of_signed found
    refine ⟨firstOperand, secondOperand,
      ⟨before, between, [], beforeBlank, betweenBlank, List.forall_mem_nil _⟩, ?_⟩
    simp [behind, sign]
  | decrease =>
    obtain ⟨rfl, secondOperand, before, between, beforeBlank, betweenBlank, rfl⟩ :=
      exists_of_signed found
    refine ⟨firstOperand, secondOperand,
      ⟨before, between, [], beforeBlank, betweenBlank, List.forall_mem_nil _⟩, ?_⟩
    simp [behind, sign]

theorem isNumeralPart_sign (form : PercentForm) : Token.isNumeralPart form.sign = false := by
  cases form <;> rfl

theorem isBlank_sign (form : PercentForm) : Text.isBlank form.sign = false := by
  cases form <;> rfl

/-- Behind the first operand stands white space or the sign. -/
theorem isNumeralPart_head?_behind (form : PercentForm) (spacing : Spacing) (second : Text) :
    ∀ c ∈ (form.behind spacing second).head?, Token.isNumeralPart c = false := by
  unfold behind
  cases shape : spacing.before with
  | nil =>
    rintro c ⟨⟩
    exact form.isNumeralPart_sign
  | cons d others =>
    rintro c ⟨⟩
    refine Text.isNumeralPart_eq_false_of_isBlank (spacing.before_blank d ?_)
    rw [shape]
    exact List.mem_cons_self

/-- **A form that is written is found**, with its operands. -/
theorem operands?_behind (form : PercentForm) {first second : Text} (spacing : Spacing)
    (firstOperand : IsOperand first) (secondOperand : IsOperand second) :
    form.operands? (first ++ form.behind spacing second) = some (first, second, []) := by
  unfold operands?
  rw [firstOperand.takeNumeral?_append (form.isNumeralPart_head?_behind spacing second),
    Option.bind_eq_bind, Option.bind_some]
  cases form with
  | share =>
    generalize word : "of".toList ++ (spacing.after ++ second) = fromWord
    have behindBefore : Text.trimStart (share.behind spacing second) =
        '%' :: (spacing.between ++ fromWord) := by
      rw [← word]
      exact Text.trimStart_append spacing.before_blank (by rintro c ⟨⟩; rfl)
    have isPercent : dropExact? ['%'] ('%' :: (spacing.between ++ fromWord)) =
        some (spacing.between ++ fromWord) := dropExact?_eq_some_iff.mpr rfl
    have behindBetween : Text.trimStart (spacing.between ++ fromWord) = fromWord := by
      rw [← word]
      exact Text.trimStart_append spacing.between_blank (by rintro c ⟨⟩; rfl)
    have isWord := dropExact?_eq_some_iff.mpr word.symm
    have behindAfter : Text.trimStart (spacing.after ++ second) = second :=
      Text.trimStart_append spacing.after_blank (by simpa using secondOperand.isBlank_head? [])
    have isSecond : takeNumeral? (second ++ []) = some (second, []) :=
      secondOperand.takeNumeral?_append nofun
    rw [List.append_nil] at isSecond
    simp only [Option.bind_eq_bind, behindBefore, isPercent, Option.bind_some, behindBetween,
      isWord, behindAfter, isSecond]
    rfl
  | increase => exact signed_behind first spacing rfl secondOperand
  | decrease => exact signed_behind first spacing rfl secondOperand

/-! ### Where no form is found -/

/-- A form is not found in a text that lacks one of its marks. -/
theorem operands?_eq_none {form : PercentForm} {text : Text} {c : Char} (isMark : c ∈ form.marks)
    (lacking : c ∉ text) : form.operands? text = none := by
  cases found : form.operands? text with
  | none => rfl
  | some operands =>
    obtain ⟨-, -, spacing, shape⟩ := exists_of_operands? found
    refine absurd ?_ lacking
    rw [shape]
    exact List.mem_append_right _ (List.mem_append_left _ (form.marks_subset_behind _ _ isMark))

/-- A form is not found at a character that belongs to no numeral. -/
theorem operands?_cons_eq_none (form : PercentForm) {c : Char} (rest : Text)
    (noPart : Token.isNumeralPart c = false) : form.operands? (c :: rest) = none := by
  cases found : form.operands? (c :: rest) with
  | none => rfl
  | some operands =>
    obtain ⟨firstOperand, -, spacing, shape⟩ := exists_of_operands? found
    obtain ⟨d, others, first⟩ := List.exists_cons_of_ne_nil firstOperand.ne_nil
    have part := firstOperand.isNumeralPart d (by rw [first]; exact List.mem_cons_self)
    rw [first] at shape
    cases shape
    rw [noPart] at part
    cases part

/-- A form is not found where its sign is not the first character behind numerals and white
space. -/
theorem operands?_append_eq_none {form : PercentForm} {front : Text} {c : Char} (rest : Text)
    (passed : ∀ d ∈ front, Token.isNumeralPart d = true ∨ Text.isBlank d = true)
    (noPart : Token.isNumeralPart c = false) (noBlank : Text.isBlank c = false)
    (noSign : c ≠ form.sign) : form.operands? (front ++ c :: rest) = none := by
  cases found : form.operands? (front ++ c :: rest) with
  | none => rfl
  | some operands =>
    obtain ⟨firstOperand, -, spacing, shape⟩ := exists_of_operands? found
    -- What stands there is the given character, and it is the sign.
    have first := congrArg (List.dropWhile fun d => Token.isNumeralPart d || Text.isBlank d) shape
    unfold behind at first
    rw [List.dropWhile_append_of_pos fun d isIn => by simpa using passed d isIn,
      List.dropWhile_cons_of_neg (by simp [noPart, noBlank]),
      List.dropWhile_append_of_pos fun d isIn => by
        rw [firstOperand.isNumeralPart d isIn, Bool.true_or],
      List.append_assoc, List.dropWhile_append_of_pos fun d isIn => by
        rw [spacing.before_blank d isIn, Bool.or_true], List.cons_append,
      List.dropWhile_cons_of_neg (by simp [isNumeralPart_sign, isBlank_sign])] at first
    exact absurd (List.cons.inj first).1 noSign

end PercentForm

/-- **A text without a percent sign is left as it is.** -/
theorem spellOutPercentages_eq_self {text : Text} (plain : '%' ∉ text) :
    spellOutPercentages text = text := by
  have unchanged (form : PercentForm) : form.spellOut text = text := by
    refine Text.replaceAll_eq_self _ _ fun rest isEnd => ?_
    have isMark : '%' ∈ form.marks := by cases form <;> decide
    unfold PercentForm.match?
    rw [PercentForm.operands?_eq_none isMark fun isIn => plain (isEnd.subset isIn)]
    rfl
  unfold spellOutPercentages
  rw [unchanged, unchanged, unchanged]

end Worksheet
