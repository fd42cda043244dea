/-
**Which texts are literals.**

A text of digits and points is read as a double exactly if it is a numeral, and then as the double
nearest to its decimal: such a text has no sign, no power of ten and no letters. All number tokens
of a text are of this kind.

* `Literal.exists_of_read?`: what is read is a literal;
* `Literal.read?_of_parts`: digits and points are read as a decimal;
* `Literal.exists_text_iff`: among digits and points the literals are the numerals;
* `Numeral.literal` is a numeral as a literal.
-/

import Worksheet.Expr.Literal
import Worksheet.Proofs.Expr.Scan
import Worksheet.Proofs.Number.Numeral

namespace Worksheet

namespace Literal

/-- Reading the text of a literal gives its value. -/
theorem read?_text (literal : Literal) : read? literal.text = some literal.value := by
  rw [value, Option.some_get]

/-- A text that is read is a literal with this value. -/
theorem exists_of_read? {text : Text} {x : Float} (read : read? text = some x) :
    ∃ literal : Literal, literal.text = text ∧ literal.value = x := by
  have good : (read? text).isSome = true := by rw [read, Option.isSome_some]
  refine ⟨⟨text, good⟩, rfl, ?_⟩
  have reads := read?_text ⟨text, good⟩
  rw [read] at reads
  exact (Option.some.inj reads).symm

/-! ### Digits and points -/

variable {text : Text}

/-- Digits and points have no lower case. -/
theorem toLower_of_isNumeralPart {c : Char} (part : Token.isNumeralPart c = true) :
    c.toLower = c := by
  rcases (Token.isNumeralPart_iff c).mp part with digit | rfl
  · have noUpper : ¬(c.val ≥ 'A'.val ∧ c.val ≤ 'Z'.val) := by
      simp only [Char.isDigit, Bool.and_eq_true, decide_eq_true_eq, ge_iff_le,
        UInt32.le_iff_toNat_le] at digit ⊢
      have nine : '9'.val.toNat = 57 := rfl
      have upper : 'A'.val.toNat = 65 := rfl
      omega
    exact dif_neg noUpper
  · rfl

/-- No sign stands in front of digits and points. -/
theorem takeSign_of_parts (parts : ∀ c ∈ text, Token.isNumeralPart c = true) :
    takeSign text = (false, text) := by
  unfold takeSign
  split
  · exact absurd (parts '-' List.mem_cons_self) (by decide)
  · exact absurd (parts '+' List.mem_cons_self) (by decide)
  · rfl

/-- Behind digits and points there is no power of ten. -/
theorem decimal?_of_parts (parts : ∀ c ∈ text, Token.isNumeralPart c = true) :
    decimal? text = Decimal.ofText? text := by
  have whole : text.takeWhile Token.isNumeralPart = text := List.takeWhile_eq_self_iff.mpr parts
  have nothing : text.dropWhile Token.isNumeralPart = [] := List.dropWhile_eq_nil_iff.mpr parts
  rw [decimal?, whole, nothing]
  cases Decimal.ofText? text with
  | none => rfl
  | some d =>
    show some (Decimal.mk d.coefficient (d.exponent + 0)) = some d
    rw [Int.add_zero]

/-- Digits and points are no word, as every word has a letter in it. -/
theorem word?_of_parts (parts : ∀ c ∈ text, Token.isNumeralPart c = true) :
    word? text = none := by
  have letter : ∀ word ∈ words, 'n' ∈ word.1 := by decide
  have lowered : text.map Char.toLower = text :=
    (List.map_congr_left fun c isIn => toLower_of_isNumeralPart (parts c isIn)).trans (List.map_id _)
  refine List.lookup_eq_none_iff.mpr fun word isWord => bne_iff_ne.mpr fun same => ?_
  rw [lowered] at same
  have isIn := letter word isWord
  rw [← same] at isIn
  exact absurd (parts 'n' isIn) (by decide)

/-- **Digits and points are read as a decimal.** -/
theorem read?_of_parts (parts : ∀ c ∈ text, Token.isNumeralPart c = true) :
    read? text = (Decimal.ofText? text).map Decimal.toFloat := by
  rw [read?, takeSign_of_parts parts]
  dsimp only
  rw [decimal?_of_parts parts, word?_of_parts parts, Option.or_none]
  exact Option.map_id'

/-- Among digits and points the literals are the numerals. -/
theorem exists_text_iff (parts : ∀ c ∈ text, Token.isNumeralPart c = true) :
    (∃ literal : Literal, literal.text = text) ↔ IsNumeral text := by
  rw [← Decimal.isSome_ofText?_iff, ← Option.isSome_map (f := Decimal.toFloat),
    ← read?_of_parts parts]
  constructor
  · rintro ⟨literal, rfl⟩
    exact literal.good
  · intro good
    exact ⟨⟨text, good⟩, rfl⟩

end Literal

namespace Numeral

/-- The numeral is read as its double. -/
theorem read?_digits (numeral : Numeral) : Literal.read? numeral.digits = some numeral.value := by
  rw [Literal.read?_of_parts numeral.good.1, ofText?_digits, Option.map_some, value]

/-- The numeral as a literal. -/
def literal (numeral : Numeral) : Literal where
  text := numeral.digits
  good := by rw [read?_digits, Option.isSome_some]

instance : Coe Numeral Literal :=
  ⟨literal⟩

@[simp] theorem text_literal (numeral : Numeral) : numeral.literal.text = numeral.digits :=
  rfl

@[simp] theorem value_literal (numeral : Numeral) : numeral.literal.value = numeral.value := by
  have read := numeral.literal.read?_text
  rw [text_literal, read?_digits] at read
  exact (Option.some.inj read).symm

end Numeral

end Worksheet
