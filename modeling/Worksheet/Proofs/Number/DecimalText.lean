/-
**The text of a decimal reads back.**

A decimal is written positionally: its number of units in the last place is cut into a whole part
and a fraction, the fraction is padded with zeros to its places, and zeros at its end are left out.
Reading collects all digits into one number again, which is smaller by as many powers of ten as
there were zeros, with as many places less.

* `zeroPadded_eq`: what is written of a fraction are its padded digits without zeros at the end;
* `ofText?_toText`: the text of a decimal reads as a decimal of the same value.
-/

import Mathlib.Algebra.Order.Field.Power
import Mathlib.Algebra.Order.Field.Rat
import Mathlib.Data.List.TakeWhile
import Mathlib.Tactic.NormNum
import Mathlib.Tactic.Positivity
import Mathlib.Tactic.Ring
import Worksheet.Proofs.Number.Numeral

namespace Worksheet

namespace Decimal

/-! ### Reading digits -/

/-- Digits alone read as a whole number. -/
theorem ofText?_digits {digits : Text} (isDigit : ∀ c ∈ digits, c.isDigit = true)
    (nonempty : digits ≠ []) :
    ofText? digits = some ⟨Nat.ofDigitChars 10 digits 0, 0⟩ := by
  have all : digits.takeWhile Char.isDigit = digits := List.takeWhile_eq_self_iff.mpr isDigit
  have none : digits.dropWhile Char.isDigit = [] := List.dropWhile_eq_nil_iff.mpr isDigit
  unfold ofText?
  rw [all, none]
  dsimp only
  rw [if_neg (by simpa using nonempty)]

/-- Digits on both sides of a point read as all digits with the places behind the point. -/
theorem ofText?_point {whole fraction : Text} (wholeDigits : ∀ c ∈ whole, c.isDigit = true)
    (fractionDigits : ∀ c ∈ fraction, c.isDigit = true) (nonempty : whole ≠ []) :
    ofText? (whole ++ '.' :: fraction) =
      some ⟨Nat.ofDigitChars 10 (whole ++ fraction) 0, -(fraction.length : Int)⟩ := by
  have first : (whole ++ '.' :: fraction).takeWhile Char.isDigit = whole := by
    rw [List.takeWhile_append_of_pos wholeDigits]
    simp
  have rest : (whole ++ '.' :: fraction).dropWhile Char.isDigit = '.' :: fraction := by
    rw [List.dropWhile_append_of_pos wholeDigits]
    rfl
  have all : fraction.all Char.isDigit = true := List.all_eq_true.mpr fractionDigits
  unfold ofText?
  rw [first, rest]
  dsimp only
  rw [if_pos (by simp [all, nonempty])]

/-! ### Writing a fraction -/

theorem isDigit_toDigits (n : Nat) : ∀ c ∈ Nat.toDigits 10 n, c.isDigit = true := fun c isIn =>
  Nat.isDigit_of_mem_toDigits (by decide) (by decide) isIn

theorem isDigit_zeroPadded (width n : Nat) : ∀ c ∈ Text.zeroPadded width n, c.isDigit = true := by
  intro c isIn
  unfold Text.zeroPadded at isIn
  rw [List.mem_append, List.mem_replicate] at isIn
  rcases isIn with ⟨_, rfl⟩ | inDigits
  · rfl
  · exact isDigit_toDigits n c inDigits

theorem ofDigitChars_zeroPadded (width n initial : Nat) (fits : n < 10 ^ width) (some : 0 < width) :
    Nat.ofDigitChars 10 (Text.zeroPadded width n) initial = 10 ^ width * initial + n := by
  have short : (Nat.toDigits 10 n).length ≤ width :=
    (Nat.length_toDigits_le_iff (by decide) some).mpr fits
  unfold Text.zeroPadded
  dsimp only
  rw [Nat.ofDigitChars_append, Nat.ofDigitChars_replicate_zero,
    Nat.ofDigitChars_eq_ofDigitChars_zero, Nat.ofDigitChars_ten_toDigits, ← Nat.mul_assoc,
    ← Nat.pow_add, Nat.add_sub_cancel' short]

/-- Zeros in front do not count. -/
theorem ofDigitChars_zeroPadded_zero (width n : Nat) :
    Nat.ofDigitChars 10 (Text.zeroPadded width n) 0 = n := by
  unfold Text.zeroPadded
  dsimp only
  rw [Nat.ofDigitChars_append, Nat.ofDigitChars_replicate_zero, Nat.mul_zero,
    Nat.ofDigitChars_ten_toDigits]

theorem zeroPadded_ne_nil (width n : Nat) : Text.zeroPadded width n ≠ [] :=
  List.append_ne_nil_of_right_ne_nil _ Nat.toDigits_ne_nil

/-- A fraction is its padded digits without some zeros at the end. -/
theorem zeroPadded_eq (places fraction : Nat) :
    ∃ zeros, Text.zeroPadded places fraction =
      fractionText places fraction ++ List.replicate zeros '0' := by
  refine ⟨((Text.zeroPadded places fraction).reverse.takeWhile (· == '0')).length, ?_⟩
  have ends : (Text.zeroPadded places fraction).reverse.takeWhile (· == '0') =
      List.replicate ((Text.zeroPadded places fraction).reverse.takeWhile (· == '0')).length '0' := by
    rw [List.eq_replicate_iff]
    refine ⟨rfl, fun c isIn => ?_⟩
    exact eq_of_beq (List.all_eq_true.mp List.all_takeWhile c isIn)
  unfold fractionText
  rw [← List.reverse_replicate, ← ends, ← List.reverse_append, List.takeWhile_append_dropWhile,
    List.reverse_reverse]

theorem isDigit_fractionText (places fraction : Nat) :
    ∀ c ∈ fractionText places fraction, c.isDigit = true := by
  obtain ⟨zeros, padded⟩ := zeroPadded_eq places fraction
  have digits := isDigit_zeroPadded places fraction
  rw [padded] at digits
  exact fun c isIn => digits c (List.mem_append_left _ isIn)

theorem length_zeroPadded {width n : Nat} (fits : n < 10 ^ width) (some : 0 < width) :
    (Text.zeroPadded width n).length = width := by
  have short : (Nat.toDigits 10 n).length ≤ width :=
    (Nat.length_toDigits_le_iff (by decide) some).mpr fits
  unfold Text.zeroPadded
  dsimp only
  rw [List.length_append, List.length_replicate, Nat.sub_add_cancel short]

/-! ### Reading back -/

theorem toRat_nonneg (d : Decimal) : 0 ≤ d.toRat := by
  unfold toRat
  positivity

/-- The number as a whole number of units in the last place of the fraction. -/
theorem toRat_eq (d : Decimal) :
    d.toRat = (d.coefficient * Nat.pow 10 d.exponent.toNat : Nat) *
      (10 : Rat) ^ (-((-d.exponent).toNat : Int)) := by
  have split : d.exponent = (d.exponent.toNat : Int) + -((-d.exponent).toNat : Int) := by omega
  have ten : (10 : Rat) ≠ 0 := by norm_num
  unfold toRat
  conv_lhs => rw [split]
  rw [zpow_add₀ ten, ← mul_assoc, Nat.cast_mul, zpow_natCast]
  push_cast [Nat.pow_eq]
  rfl

/-- Zeros at the end and the places that they take leave the number as it is. -/
theorem cast_mul_zpow {value scaled zeros length places : Nat}
    (zerosBehind : 10 ^ zeros * value = scaled) (together : length + zeros = places) :
    (value : Rat) * (10 : Rat) ^ (-(length : Int)) = scaled * (10 : Rat) ^ (-(places : Int)) := by
  have ten : (10 : Rat) ≠ 0 := by norm_num
  have exponent : (-(length : Int)) = (zeros : Int) + -(places : Int) := by omega
  rw [← zerosBehind, exponent, zpow_add₀ ten, zpow_natCast]
  push_cast
  ring

/-- **A decimal's text reads back as the same number.** -/
theorem ofText?_toText (d : Decimal) :
    ∃ back, ofText? d.toText = some back ∧ back.toRat = d.toRat := by
  have ten : (10 : Rat) ≠ 0 := by norm_num
  rw [toRat_eq d]
  unfold toText
  dsimp only
  generalize (-d.exponent).toNat = places
  generalize d.coefficient * Nat.pow 10 d.exponent.toNat = scaled
  rw [Nat.pow_eq]
  have fits : scaled % 10 ^ places < 10 ^ places := Nat.mod_lt _ (by positivity)
  have division : 10 ^ places * (scaled / 10 ^ places) + scaled % 10 ^ places = scaled :=
    Nat.div_add_mod _ _
  have wholeDigits := isDigit_toDigits (scaled / 10 ^ places)
  have digits := isDigit_fractionText places (scaled % 10 ^ places)
  obtain ⟨zeros, padded⟩ := zeroPadded_eq places (scaled % 10 ^ places)
  cases places with
  | zero =>
    have none : fractionText 0 (scaled % 10 ^ 0) = [] := by
      rw [pow_zero, Nat.mod_one]
      decide
    rw [none]
    refine ⟨_, ofText?_digits wholeDigits Nat.toDigits_ne_nil, ?_⟩
    rw [Nat.ofDigitChars_ten_toDigits]
    simp [toRat]
  | succ places =>
    have value := ofDigitChars_zeroPadded (places + 1) (scaled % 10 ^ (places + 1))
      (scaled / 10 ^ (places + 1)) fits (Nat.succ_pos places)
    have length := length_zeroPadded fits (Nat.succ_pos places)
    rw [padded, Nat.ofDigitChars_append, Nat.ofDigitChars_replicate_zero, division] at value
    rw [padded, List.length_append, List.length_replicate] at length
    cases text : fractionText (places + 1) (scaled % 10 ^ (places + 1)) with
    | nil =>
      rw [text, List.length_nil, Nat.zero_add] at length
      rw [text, Nat.ofDigitChars_nil, length] at value
      refine ⟨_, ofText?_digits wholeDigits Nat.toDigits_ne_nil, ?_⟩
      rw [Nat.ofDigitChars_ten_toDigits]
      have scaledDown : ((scaled / 10 ^ (places + 1) : Nat) : Rat) * 10 ^ (-((0 : Nat) : Int)) =
          scaled * (10 : Rat) ^ (-((places + 1 : Nat) : Int)) := cast_mul_zpow value (by omega)
      exact scaledDown
    | cons c others =>
      rw [text] at value length digits
      refine ⟨_, ofText?_point wholeDigits digits Nat.toDigits_ne_nil, ?_⟩
      rw [Nat.ofDigitChars_append, Nat.ofDigitChars_ten_toDigits]
      exact cast_mul_zpow value length

end Decimal

end Worksheet
