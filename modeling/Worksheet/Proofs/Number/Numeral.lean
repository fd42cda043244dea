/-
**Which texts are numerals.**

A numeral is a run of digits and points with at least one digit and at most one point, in any
order. Reading a decimal accepts these texts and no others.

* `IsNumeral` says so without reading;
* `isSome_ofText?_iff`: reading a decimal has an answer exactly for numerals;
* `Numeral` is a text with the proof that it is one, and `Numeral.value` the double it stands for.
-/

import Worksheet.Expr.Token
import Worksheet.Number.Decimal

namespace Worksheet

/-- Digits and points, at least one of them a digit and at most one of them a point. -/
def IsNumeral (text : Text) : Prop :=
  (∀ c ∈ text, Token.isNumeralPart c = true) ∧ (∃ c ∈ text, c.isDigit = true) ∧
    text.count '.' ≤ 1

instance (text : Text) : Decidable (IsNumeral text) :=
  decidable_of_decidable_of_iff
    (p := text.all Token.isNumeralPart = true ∧ text.any Char.isDigit = true ∧ text.count '.' ≤ 1)
    (and_congr List.all_eq_true (and_congr_left' List.any_eq_true))

namespace Decimal

/-- There is no point among digits. -/
theorem count_point_eq_zero {text : Text} (digits : ∀ c ∈ text, c.isDigit = true) :
    text.count '.' = 0 := by
  rw [List.count_eq_zero]
  intro isPoint
  exact absurd (digits '.' isPoint) (by decide)

/-- Digits alone are a numeral as soon as there is one. -/
theorem isNumeral_digits {text : Text} (digits : ∀ c ∈ text, c.isDigit = true) :
    IsNumeral text ↔ text ≠ [] := by
  constructor
  · rintro ⟨_, ⟨c, isIn, _⟩, _⟩
    exact List.ne_nil_of_mem isIn
  · intro nonempty
    obtain ⟨c, rest, rfl⟩ := List.exists_cons_of_ne_nil nonempty
    refine ⟨fun d isIn => ?_, ⟨c, List.mem_cons_self, digits c List.mem_cons_self⟩, ?_⟩
    · rw [Token.isNumeralPart, digits d isIn, Bool.true_or]
    · rw [count_point_eq_zero digits]
      exact Nat.zero_le 1

/-- Behind leading digits, a numeral goes on with one point and digits. -/
theorem isNumeral_append {whole : Text} (fraction : Text) {c : Char}
    (digits : ∀ d ∈ whole, d.isDigit = true) (noDigit : c.isDigit = false) :
    IsNumeral (whole ++ c :: fraction) ↔
      c = '.' ∧ (∀ d ∈ fraction, d.isDigit = true) ∧ ¬(whole = [] ∧ fraction = []) := by
  have wholePoints := count_point_eq_zero digits
  constructor
  · rintro ⟨parts, ⟨d, isIn, isDigit⟩, points⟩
    have isPoint : c = '.' := by
      have part := parts c (by simp)
      rw [Token.isNumeralPart, noDigit, Bool.false_or] at part
      exact eq_of_beq part
    subst isPoint
    rw [List.count_append, wholePoints, List.count_cons_self] at points
    have fractionPoints : fraction.count '.' = 0 := by omega
    refine ⟨rfl, fun e inFraction => ?_, ?_⟩
    · have part := parts e (by simp [inFraction])
      rw [Token.isNumeralPart, Bool.or_eq_true] at part
      rcases part with digit | point
      · exact digit
      · rw [eq_of_beq point] at inFraction
        exact absurd inFraction (List.count_eq_zero.mp fractionPoints)
    · rintro ⟨rfl, rfl⟩
      rw [List.nil_append, List.mem_singleton] at isIn
      rw [isIn] at isDigit
      exact absurd isDigit (by decide)
  · rintro ⟨rfl, fractionDigits, nonempty⟩
    refine ⟨fun d isIn => ?_, ?_, ?_⟩
    · rw [List.mem_append, List.mem_cons] at isIn
      rcases isIn with inWhole | rfl | inFraction
      · rw [Token.isNumeralPart, digits d inWhole, Bool.true_or]
      · rfl
      · rw [Token.isNumeralPart, fractionDigits d inFraction, Bool.true_or]
    · cases whole with
      | cons d others => exact ⟨d, by simp, digits d List.mem_cons_self⟩
      | nil =>
        cases fraction with
        | cons d others => exact ⟨d, by simp, fractionDigits d List.mem_cons_self⟩
        | nil => exact absurd ⟨rfl, rfl⟩ nonempty
    · have points : (whole ++ '.' :: fraction).count '.' = 1 := by
        rw [List.count_append, wholePoints, List.count_cons_self,
          count_point_eq_zero fractionDigits]
      exact Nat.le_of_eq points

/-- **Reading a decimal has an answer exactly for numerals.** -/
theorem isSome_ofText?_iff (text : Text) : (ofText? text).isSome = true ↔ IsNumeral text := by
  have wholeDigits : ∀ c ∈ text.takeWhile Char.isDigit, c.isDigit = true :=
    List.all_eq_true.mp List.all_takeWhile
  have split : text = text.takeWhile Char.isDigit ++ text.dropWhile Char.isDigit :=
    List.takeWhile_append_dropWhile.symm
  unfold ofText?
  cases behind : text.dropWhile Char.isDigit with
  | nil =>
    rw [behind, List.append_nil] at split
    have onlyDigits : ∀ c ∈ text, c.isDigit = true := by
      rw [split]
      exact wholeDigits
    rw [isNumeral_digits onlyDigits, ← split]
    cases text <;> simp
  | cons c fraction =>
    rw [behind] at split
    have noDigit : c.isDigit = false := by
      have head := List.head_dropWhile_not Char.isDigit (l := text) (by simp [behind])
      simpa [behind] using head
    have shape := isNumeral_append fraction wholeDigits noDigit
    rw [← split] at shape
    have accepts : (c == '.' && fraction.all Char.isDigit &&
        !((text.takeWhile Char.isDigit).isEmpty && fraction.isEmpty)) = true ↔
          c = '.' ∧ (∀ d ∈ fraction, d.isDigit = true) ∧
            ¬(text.takeWhile Char.isDigit = [] ∧ fraction = []) := by
      simp only [Bool.and_eq_true, Bool.not_eq_true', ← Bool.not_eq_true, beq_iff_eq,
        List.all_eq_true, List.isEmpty_iff, and_assoc]
    rw [shape, ← accepts]
    exact Option.isSome_ite

end Decimal

/-! ### Numerals as a type -/

/-- A text that is a numeral. -/
structure Numeral where
  digits : Text
  good : IsNumeral digits

namespace Numeral

/-- The decimal that the numeral stands for. -/
def decimal (numeral : Numeral) : Decimal :=
  (Decimal.ofText? numeral.digits).get ((Decimal.isSome_ofText?_iff _).mpr numeral.good)

/-- The double that the numeral is read as. -/
def value (numeral : Numeral) : Float :=
  numeral.decimal.toFloat

theorem digits_ne_nil (numeral : Numeral) : numeral.digits ≠ [] :=
  let ⟨_, isIn, _⟩ := numeral.good.2.1
  List.ne_nil_of_mem isIn

theorem eq_of_digits {numeral other : Numeral} (same : numeral.digits = other.digits) :
    numeral = other := by
  cases numeral
  cases other
  cases same
  rfl

/-- Reading the text of a numeral gives its decimal. -/
theorem ofText?_digits (numeral : Numeral) :
    Decimal.ofText? numeral.digits = some numeral.decimal := by
  rw [decimal, Option.some_get]

/-- A text that reads as a decimal is a numeral with this decimal. -/
theorem exists_of_ofText? {text : Text} {d : Decimal} (read : Decimal.ofText? text = some d) :
    ∃ numeral : Numeral, numeral.digits = text ∧ numeral.decimal = d := by
  have good : IsNumeral text := (Decimal.isSome_ofText?_iff text).mp (by rw [read]; rfl)
  refine ⟨⟨text, good⟩, rfl, ?_⟩
  have reads := ofText?_digits ⟨text, good⟩
  rw [read] at reads
  exact (Option.some.inj reads).symm

end Numeral

end Worksheet
