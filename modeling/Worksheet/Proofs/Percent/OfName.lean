/-
**Percentages of a name.**

The operands of a percentage are numerals, but a form may begin in the middle of a word: where a
name ends with digits, these are taken for the first operand, and what is in front of them stays.
No form begins in front of them, since a numeral in the middle of a word has a letter or an
underscore behind it.

* `Text.stem` and `Text.lastDigits` are the two parts of a name;
* `spellOutPercentages_behind`: a form with an operand on both sides is spelled out by one pass;
* `spellOutPercentages_of_letter`: behind a name without digits at its end the form stays;
* `spellOutPercentages_of_digits`: behind all other names it is spelled out with these digits.
-/

import Mathlib.Data.List.DropRight
import Worksheet.Proofs.Expr.Scan
import Worksheet.Proofs.Percent

namespace Worksheet

namespace Text

/-! ### The parts of a name -/

/-- The name without the digits at its end. -/
def stem (name : Text) : Text :=
  name.rdropWhile Char.isDigit

/-- The digits at the end of a name. -/
def lastDigits (name : Text) : Text :=
  name.rtakeWhile Char.isDigit

theorem stem_append_lastDigits (name : Text) : name.stem ++ name.lastDigits = name :=
  List.rdropWhile_append_rtakeWhile

theorem isDigit_of_mem_lastDigits {name : Text} : ∀ c ∈ name.lastDigits, c.isDigit = true :=
  fun _ isIn => List.mem_rtakeWhile_imp isIn

/-- The stem of a name is a name. -/
theorem isName_stem {name : Text} (isName : isName name = true) : Text.isName name.stem = true := by
  cases name with
  | nil => cases isName
  | cons c rest =>
    rw [Text.isName, Bool.and_eq_true, List.all_eq_true] at isName
    have isPrefix : stem (c :: rest) <+: c :: rest := List.rdropWhile_prefix _ _
    have nonempty : stem (c :: rest) ≠ [] := by
      intro empty
      have digit := List.rdropWhile_eq_nil_iff.mp empty c List.mem_cons_self
      rw [isDigit_eq_false_of_isWordStart isName.1] at digit
      cases digit
    obtain ⟨d, others, shape⟩ := List.exists_cons_of_ne_nil nonempty
    rw [shape, List.cons_prefix_cons] at isPrefix
    obtain ⟨rfl, later⟩ := isPrefix
    rw [shape, Text.isName, isName.1, Bool.true_and, List.all_eq_true]
    exact fun e isIn => isName.2 e (later.subset isIn)

/-- Behind a numeral in the stem of a name stands a letter or an underscore. -/
theorem exists_of_suffix_stem {name part : Text} (isName : isName name = true)
    (isEnd : part <:+ name.stem) (nonempty : part ≠ []) :
    ∃ digits letter rest, part = digits ++ letter :: rest ∧ (∀ c ∈ digits, c.isDigit = true) ∧
      isWordStart letter = true := by
  have wordParts : ∀ c ∈ part, isWordPart c = true := fun c isIn =>
    isWordPart_of_isName (isName_stem isName) c (isEnd.subset isIn)
  have noDigits : part.dropWhile Char.isDigit ≠ [] := by
    intro allDigits
    have stemNonempty : name.stem ≠ [] := fun empty =>
      nonempty (List.suffix_nil.mp (empty ▸ isEnd))
    have last : ¬ (name.stem.getLast stemNonempty).isDigit = true :=
      List.rdropWhile_last_not Char.isDigit name stemNonempty
    rw [← isEnd.getLast nonempty] at last
    exact last (List.dropWhile_eq_nil_iff.mp allDigits _ (List.getLast_mem nonempty))
  obtain ⟨letter, rest, shape⟩ := List.exists_cons_of_ne_nil noDigits
  have split := List.takeWhile_append_dropWhile (p := Char.isDigit) (l := part)
  rw [shape] at split
  have noDigit : letter.isDigit = false := by
    have head := List.head_dropWhile_not Char.isDigit (l := part) noDigits
    simpa [shape] using head
  have wordPart := wordParts letter (by rw [← split]; simp)
  rw [isWordPart_iff, noDigit] at wordPart
  exact ⟨_, letter, rest, split.symm,
    fun c isIn => List.all_eq_true.mp List.all_takeWhile c isIn, wordPart.resolve_right nofun⟩

end Text

namespace PercentForm

variable {name second : Text} {spacing : Spacing}

/-! ### One form -/

/-- The stem of a name stays, whatever stands behind it. -/
theorem spellOut_stem (form : PercentForm) (isName : Text.isName name = true) (rest : Text) :
    form.spellOut (name.stem ++ rest) = name.stem ++ form.spellOut rest := by
  refine Text.replaceAll_append fun part isEnd nonempty => ?_
  obtain ⟨digits, letter, others, rfl, isDigit, start⟩ :=
    Text.exists_of_suffix_stem isName isEnd nonempty
  have parts : ∀ d ∈ digits, Token.isNumeralPart d = true ∨ Text.isBlank d = true := fun d isIn =>
    Or.inl ((Token.isNumeralPart_iff d).mpr (Or.inl (isDigit d isIn)))
  have noSign : letter ≠ form.sign := by
    rintro rfl
    cases form <;> exact absurd start (by decide)
  have noBlank := Text.isBlank_eq_false_of_isWordPart letter
    (Text.isWordPart_of_isWordStart letter start)
  rw [match?, List.append_assoc, List.cons_append, operands?_append_eq_none _ parts
    (Token.isNumeralPart_eq_false_of_isWordStart start) noBlank noSign]
  rfl

/-- A text that lacks one of the form's marks stays. -/
theorem spellOut_eq_self {form : PercentForm} {text : Text} {c : Char} (isMark : c ∈ form.marks)
    (lacking : c ∉ text) : form.spellOut text = text := by
  refine Text.replaceAll_eq_self _ _ fun rest isEnd => ?_
  rw [match?, operands?_eq_none isMark fun isIn => lacking (isEnd.subset isIn)]
  rfl

/-- Characters that belong to no numeral stay, whatever stands behind them. -/
theorem spellOut_append (form : PercentForm) {front : Text} (rest : Text)
    (noParts : ∀ c ∈ front, Token.isNumeralPart c = false) :
    form.spellOut (front ++ rest) = front ++ form.spellOut rest := by
  refine Text.replaceAll_append fun part isEnd nonempty => ?_
  obtain ⟨c, others, rfl⟩ := List.exists_cons_of_ne_nil nonempty
  rw [match?, List.cons_append, operands?_cons_eq_none form _
    (noParts c (isEnd.subset List.mem_cons_self))]
  rfl

/-- What is written behind a first operand stays if there is none. -/
theorem spellOut_behind (form other : PercentForm) (operand : IsOperand second) :
    form.spellOut (other.behind spacing second) = other.behind spacing second := by
  have noPart {blanks : Text} (isBlank : ∀ c ∈ blanks, Text.isBlank c = true) :
      ∀ c ∈ blanks, Token.isNumeralPart c = false := fun c isIn =>
    Text.isNumeralPart_eq_false_of_isBlank (isBlank c isIn)
  -- Each form has a mark that is no percent sign or that does not stand behind the second operand.
  obtain ⟨mark, isMark, noNumeral, noPercent⟩ : ∃ mark ∈ form.marks,
      Token.isNumeralPart mark = false ∧ mark ≠ '%' := by
    cases form with
    | share => exact ⟨'o', by decide, rfl, by decide⟩
    | increase => exact ⟨'+', by decide, rfl, by decide⟩
    | decrease => exact ⟨'-', by decide, rfl, by decide⟩
  have lacking : mark ∉ second := fun isIn => by
    rw [operand.isNumeralPart mark isIn] at noNumeral
    cases noNumeral
  have signed : form.spellOut (second ++ ['%']) = second ++ ['%'] :=
    spellOut_eq_self isMark (by simp [lacking, noPercent])
  unfold behind
  rw [spellOut_append form _ (noPart spacing.before_blank), ← List.singleton_append,
    spellOut_append form _ (by simpa using other.isNumeralPart_sign),
    spellOut_append form _ (noPart spacing.between_blank)]
  cases other with
  | share =>
    dsimp only
    rw [spellOut_append form _ (by simp [Token.isNumeralPart]),
      spellOut_append form _ (noPart spacing.after_blank), spellOut_eq_self isMark lacking]
  | increase =>
    dsimp only
    rw [signed]
  | decrease =>
    dsimp only
    rw [signed]

/-- Another form than the one that is written behind an operand is not found there. -/
theorem spellOut_operand_of_ne {form other : PercentForm} {first : Text}
    (firstOperand : IsOperand first) (operand : IsOperand second) (distinct : other ≠ form) :
    form.spellOut (first ++ other.behind spacing second) =
      first ++ other.behind spacing second := by
  unfold spellOut
  rw [Text.replaceAll_append]
  · congr 1
    exact spellOut_behind form other operand
  · intro part isEnd _
    have passed : ∀ d ∈ part ++ spacing.before,
        Token.isNumeralPart d = true ∨ Text.isBlank d = true := by
      intro d isIn
      rcases List.mem_append.mp isIn with inFirst | inBlanks
      · exact Or.inl (firstOperand.isNumeralPart d (isEnd.subset inFirst))
      · exact Or.inr (spacing.before_blank d inBlanks)
    have noSign : other.sign ≠ form.sign := by
      cases other <;> cases form <;> first | exact absurd rfl distinct | decide
    unfold behind
    rw [match?, ← List.append_assoc, operands?_append_eq_none _ passed other.isNumeralPart_sign
      other.isBlank_sign noSign]
    rfl

/-- A form with an operand on both sides is spelled out. -/
theorem spellOut_written (form : PercentForm) {first : Text} (firstOperand : IsOperand first)
    (secondOperand : IsOperand second) :
    form.spellOut (first ++ form.behind spacing second) = form.spelledOut first second := by
  refine Text.replaceAll_of_match (List.append_ne_nil_of_left_ne_nil firstOperand.ne_nil _) ?_
  rw [match?, form.operands?_behind spacing firstOperand secondOperand]
  rfl

/-- There is no percent sign where a form is spelled out. -/
theorem percent_notMem_spelledOut (form : PercentForm) {first : Text}
    (firstOperand : IsOperand first) (secondOperand : IsOperand second) :
    '%' ∉ form.spelledOut first second := by
  have notFirst : '%' ∉ first := fun isIn =>
    absurd (firstOperand.isNumeralPart '%' isIn) (by decide)
  have notSecond : '%' ∉ second := fun isIn =>
    absurd (secondOperand.isNumeralPart '%' isIn) (by decide)
  cases form <;> simp [spelledOut, notFirst, notSecond]

end PercentForm

/-! ### All forms -/

variable {name second : Text}

/-- **Behind a name that ends with a letter or an underscore, a form of percentage stays.** -/
theorem spellOutPercentages_of_letter (isName : Text.isName name = true)
    (noDigits : name.lastDigits = []) (form : PercentForm) (spacing : Spacing)
    (operand : IsOperand second) :
    spellOutPercentages (name ++ form.behind spacing second) =
      name ++ form.behind spacing second := by
  have same : name.stem = name := by
    simpa [noDigits] using name.stem_append_lastDigits
  have unchanged (other : PercentForm) :
      other.spellOut (name ++ form.behind spacing second) = name ++ form.behind spacing second := by
    conv_lhs => rw [← same]
    rw [other.spellOut_stem isName, other.spellOut_behind form operand, same]
  unfold spellOutPercentages
  rw [unchanged, unchanged, unchanged]

/-- Behind a text that stays in every pass, a form with an operand on both sides is spelled out by
the pass of its own, and no other pass finds anything. -/
theorem spellOutPercentages_behind (front : Text) {first : Text}
    (stays : ∀ (other : PercentForm) (rest : Text),
      other.spellOut (front ++ rest) = front ++ other.spellOut rest)
    (form : PercentForm) (spacing : Spacing) (firstOperand : IsOperand first)
    (operand : IsOperand second) :
    spellOutPercentages (front ++ (first ++ form.behind spacing second)) =
      front ++ form.spelledOut first second := by
  have foreign {other : PercentForm} (distinct : form ≠ other) :
      other.spellOut (front ++ (first ++ form.behind spacing second)) =
        front ++ (first ++ form.behind spacing second) := by
    rw [stays, PercentForm.spellOut_operand_of_ne firstOperand operand distinct]
  have own : form.spellOut (front ++ (first ++ form.behind spacing second)) =
      front ++ form.spelledOut first second := by
    rw [stays, form.spellOut_written firstOperand operand]
  have later (other : PercentForm) :
      other.spellOut (front ++ form.spelledOut first second) =
        front ++ form.spelledOut first second := by
    have isMark : '%' ∈ other.marks := by cases other <;> decide
    rw [stays, PercentForm.spellOut_eq_self isMark
      (form.percent_notMem_spelledOut firstOperand operand)]
  unfold spellOutPercentages
  cases form with
  | share => rw [own, later, later]
  | increase => rw [foreign (by decide), own, later]
  | decrease => rw [foreign (by decide), foreign (by decide), own]

/-- **Behind a name that ends with digits, these are the first operand.** -/
theorem spellOutPercentages_of_digits (isName : Text.isName name = true)
    (digits : name.lastDigits ≠ []) (form : PercentForm) (spacing : Spacing)
    (operand : IsOperand second) :
    spellOutPercentages (name ++ form.behind spacing second) =
      name.stem ++ form.spelledOut name.lastDigits second := by
  have first : IsOperand name.lastDigits := isOperand_digits Text.isDigit_of_mem_lastDigits digits
  conv_lhs => rw [← name.stem_append_lastDigits, List.append_assoc]
  exact spellOutPercentages_behind name.stem (fun other => other.spellOut_stem isName) form spacing
    first operand

end Worksheet
