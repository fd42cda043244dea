/-
**Products and quotients of doubles.**

The product of two finite doubles without sign is the double nearest to the product of the numbers
that they stand for, and their quotient is the double nearest to the quotient. What is infinite
stays infinite when it is divided or multiplied by such a double.

* `divCore_spec`: a division of mantissas goes far enough, and notes what is left over;
* `mul_eq_nearest` and `div_eq_nearest`: products and quotients are rounded to the nearest double;
* `StaysBelow` and `nearest_div_mul_cases`: when a rounded number that is divided and multiplied
  ends in infinity.
-/

import Worksheet.Proofs.Number.StandsFor

namespace Worksheet

namespace Binary

open Float.Model (Format UnpackedFloat totalExponent)
open Float.Model.UnpackedFloat

variable {x y : Float} {v w : Rat}

/-! ### Products and quotients -/

/-- A rounded result is the nearest double. -/
theorem eq_nearest_of_toBits {mantissa : Nat} {exponent : Int} {note : Accuracy} (positive : 0 < v)
    (describes : Describes note mantissa (v / 2 ^ exponent))
    (room : exponent ≤ Format.binary64.targetExponent (totalExponent mantissa exponent))
    (bits : x.toBits.toBitVec =
      pack Format.binary64 (roundWithAccuracy Format.binary64 .positive mantissa exponent note)) :
    x = nearest v := by
  apply Float.toBits_inj.mp
  apply UInt64.toNat_inj.mp
  rw [toNat_toBits_nearest]
  show x.toBits.toBitVec.toNat = _
  rw [bits, toNat_pack_roundWithAccuracy .positive positive describes room]
  show 0 * 2 ^ 63 + _ = _
  rw [Nat.zero_mul, Nat.zero_add]

theorem eq_nearest_zero (bits : x.toBits.toBitVec = pack Format.binary64 (.zero .positive)) :
    x = nearest 0 := by
  apply Float.toBits_inj.mp
  apply UInt64.toBitVec_inj.mp
  rw [bits]
  decide +kernel

/-- A product of mantissas is computed to all digits of the result: one of them has 53 digits, or
both count units of the least place. -/
theorem le_targetExponent_mul {m₁ m₂ : Nat} {e₁ e₂ : Int} (positive₁ : 0 < m₁)
    (positive₂ : 0 < m₂) (least₁ : leastExponent ≤ e₁) (least₂ : leastExponent ≤ e₂)
    (full₁ : 2 ^ 52 ≤ m₁ ∨ e₁ = leastExponent) (full₂ : 2 ^ 52 ≤ m₂ ∨ e₂ = leastExponent) :
    e₁ + e₂ ≤ Format.binary64.targetExponent (totalExponent (m₁ * m₂) (e₁ + e₂)) := by
  rw [targetExponent_totalExponent]
  have nonzero : m₁ * m₂ ≠ 0 := (Nat.mul_pos positive₁ positive₂).ne'
  rcases full₁ with full | rfl
  · have digits : 52 ≤ (m₁ * m₂).log2 :=
      (Nat.le_log2 nonzero).mpr (full.trans (Nat.le_mul_of_pos_right m₁ positive₂))
    omega
  · rcases full₂ with full | rfl
    · have digits : 52 ≤ (m₁ * m₂).log2 :=
        (Nat.le_log2 nonzero).mpr (full.trans (Nat.le_mul_of_pos_left m₂ positive₁))
      omega
    · unfold leastExponent
      omega

/-- The product of doubles is the double nearest to the product. -/
theorem mul_eq_nearest (left : StandsFor x v) (right : StandsFor y w) :
    x * y = nearest (v * w) := by
  have product : (x * y).toBits.toBitVec = pack Format.binary64
      (UnpackedFloat.mul Format.binary64 (unpack Format.binary64 x.toBits.toBitVec)
        (unpack Format.binary64 y.toBits.toBitVec)) := rfl
  rcases left.unpack with ⟨rfl, isZero⟩ | ⟨m₁, e₁, positive₁, isFirst, rfl, least₁, -, full₁⟩
  · rw [zero_mul]
    refine eq_nearest_zero ?_
    rw [product, isZero]
    rcases right.unpack with ⟨-, isZero⟩ | ⟨m₂, e₂, positive₂, isSecond, -⟩
    · rw [isZero]
      rfl
    · rw [isSecond]
      rfl
  · rcases right.unpack with ⟨rfl, isZero⟩ | ⟨m₂, e₂, positive₂, isSecond, rfl, least₂, -, full₂⟩
    · rw [mul_zero]
      refine eq_nearest_zero ?_
      rw [product, isFirst, isZero]
      rfl
    · rw [isFirst, isSecond] at product
      have value : (m₁ : Rat) * 2 ^ e₁ * (m₂ * 2 ^ e₂) = (m₁ * m₂ : Nat) * 2 ^ (e₁ + e₂) := by
        rw [zpow_add₀ (by norm_num)]
        push_cast
        ring
      have power : (0 : Rat) < 2 ^ (e₁ + e₂) := by positivity
      refine eq_nearest_of_toBits (by positivity) ?_ ?_ product
      · rw [value, mul_div_cancel_right₀ _ power.ne']
        rfl
      · exact le_targetExponent_mul positive₁ positive₂ least₁ least₂ full₁ full₂

/-- The note of a division says how much of a unit is left over. -/
theorem describes_accuracyOfFraction (dividend : Nat) {divisor : Nat} (positive : 0 < divisor) :
    Describes (accuracyOfFraction (dividend % divisor) divisor) (dividend / divisor)
      (dividend / divisor) := by
  have below : dividend % divisor < divisor := Nat.mod_lt dividend positive
  have division : (divisor : Rat) * (dividend / divisor : Nat) + (dividend % divisor : Nat) =
      dividend := by exact_mod_cast Nat.div_add_mod dividend divisor
  generalize dividend / divisor = quotient at division ⊢
  generalize dividend % divisor = left at below division ⊢
  have size : (0 : Rat) < divisor := by exact_mod_cast positive
  have value : (dividend : Rat) / divisor = quotient + left / divisor := by
    rw [← division, add_div, mul_div_cancel_left₀ _ size.ne']
  rw [value]
  unfold accuracyOfFraction
  by_cases none : left = 0
  · rw [if_pos none, none]
    simp [Describes]
  · have some : (0 : Rat) < left := by exact_mod_cast Nat.pos_of_ne_zero none
    rw [if_neg none]
    rcases lt_trichotomy (2 * left) divisor with less | half | more
    · rw [Nat.compare_eq_lt.mpr less]
      have lessHalf : (left : Rat) / divisor < 1 / 2 := by
        rw [div_lt_div_iff₀ size (by norm_num), one_mul, mul_comm]
        exact_mod_cast less
      have fraction : 0 < (left : Rat) / divisor := by positivity
      exact ⟨by linarith, by linarith⟩
    · rw [Nat.compare_eq_eq.mpr half]
      have isHalf : (left : Rat) / divisor = 1 / 2 := by
        rw [div_eq_div_iff size.ne' (by norm_num), one_mul, mul_comm]
        exact_mod_cast half
      show _ = _
      rw [isHalf]
    · rw [Nat.compare_eq_gt.mpr more]
      have moreHalf : 1 / 2 < (left : Rat) / divisor := by
        rw [div_lt_div_iff₀ (by norm_num) size, one_mul, mul_comm]
        exact_mod_cast more
      have fraction : (left : Rat) / divisor < 1 := by
        rw [div_lt_one size]
        exact_mod_cast below
      exact ⟨by linarith, by linarith⟩

/-- A division is carried out far enough for all digits of the result. -/
theorem divCore_spec {m₁ m₂ : Nat} (e₁ e₂ : Int) (positive₁ : 0 < m₁) (positive₂ : 0 < m₂) :
    ∃ quotient exponent note,
      divCore Format.binary64 m₁ e₁ m₂ e₂ = (quotient, exponent, note) ∧
        Describes note quotient (m₁ * 2 ^ e₁ / (m₂ * 2 ^ e₂) / 2 ^ exponent) ∧
          exponent ≤ Format.binary64.targetExponent (totalExponent quotient exponent) := by
  unfold divCore
  dsimp only
  generalize isExponent : min (e₁ - e₂) (Format.binary64.targetExponent
    (totalExponent m₁ e₁ - totalExponent m₂ e₂)) = exponent
  have within : exponent ≤ e₁ - e₂ := isExponent ▸ min_le_left _ _
  have target : exponent ≤
      max (((m₁.log2 : Int) + 1 + e₁) - ((m₂.log2 : Int) + 1 + e₂) - 53) leastExponent :=
    isExponent ▸ min_le_right _ _
  obtain ⟨shift, isShift⟩ := Int.le.dest within
  have steps : (e₁ - e₂ - exponent).toNat = shift := by omega
  rw [steps, Nat.shiftLeft_eq]
  refine ⟨_, _, _, rfl, ?_, ?_⟩
  · have power : (2 : Rat) ^ e₁ = 2 ^ shift * 2 ^ exponent * 2 ^ e₂ := by
      rw [← zpow_natCast, ← zpow_add₀ (by norm_num), ← zpow_add₀ (by norm_num)]
      congr 1
      omega
    have value : (m₁ : Rat) * 2 ^ e₁ / (m₂ * 2 ^ e₂) / 2 ^ exponent =
        (m₁ * 2 ^ shift : Nat) / m₂ := by
      have size : (0 : Rat) < m₂ := by exact_mod_cast positive₂
      rw [power]
      push_cast
      field_simp
    rw [value]
    exact describes_accuracyOfFraction _ positive₂
  · rw [targetExponent_totalExponent]
    rcases le_or_gt exponent leastExponent with least | above
    · exact le_max_of_le_right least
    · have enough : m₂.log2 + 53 ≤ m₁.log2 + shift := by omega
      have digits : 2 ^ 52 ≤ m₁ * 2 ^ shift / m₂ := by
        rw [Nat.le_div_iff_mul_le positive₂]
        calc 2 ^ 52 * m₂ ≤ 2 ^ 52 * 2 ^ (m₂.log2 + 1) :=
              Nat.mul_le_mul_left _ Nat.lt_log2_self.le
          _ = 2 ^ (m₂.log2 + 53) := by rw [← pow_add, add_comm, add_assoc]
          _ ≤ 2 ^ (m₁.log2 + shift) := Nat.pow_le_pow_right (by decide) enough
          _ = 2 ^ m₁.log2 * 2 ^ shift := pow_add 2 _ _
          _ ≤ m₁ * 2 ^ shift := Nat.mul_le_mul_right _ (Nat.log2_self_le positive₁.ne')
      have full : 52 ≤ (m₁ * 2 ^ shift / m₂).log2 :=
        (Nat.le_log2 (Nat.pos_of_neZero _ |>.trans_le digits).ne').mpr digits
      omega

/-- The quotient of doubles is the double nearest to the quotient. -/
theorem div_eq_nearest (left : StandsFor x v) (right : StandsFor y w) (nonzero : w ≠ 0) :
    x / y = nearest (v / w) := by
  have quotient : (x / y).toBits.toBitVec = pack Format.binary64
      (UnpackedFloat.div Format.binary64 (unpack Format.binary64 x.toBits.toBitVec)
        (unpack Format.binary64 y.toBits.toBitVec)) := rfl
  rcases right.unpack with ⟨none, -⟩ | ⟨m₂, e₂, positive₂, isSecond, rfl, -⟩
  · exact absurd none nonzero
  · rcases left.unpack with ⟨rfl, isZero⟩ | ⟨m₁, e₁, positive₁, isFirst, rfl, -⟩
    · rw [isZero, isSecond] at quotient
      rw [zero_div]
      exact eq_nearest_zero quotient
    · rw [isFirst, isSecond] at quotient
      obtain ⟨m, e, note, core, describes, room⟩ := divCore_spec e₁ e₂ positive₁ positive₂
      have rounded : UnpackedFloat.div Format.binary64 (.finite .positive m₁ e₁ positive₁)
          (.finite .positive m₂ e₂ positive₂) =
            roundWithAccuracy Format.binary64 .positive m e note := by
        unfold UnpackedFloat.div
        dsimp only
        rw [core]
        rfl
      rw [rounded] at quotient
      exact eq_nearest_of_toBits (by positivity) describes room quotient

/-! ### Infinity -/

theorem isFinite_infinity : infinity.isFinite = false := by
  decide +kernel

theorem unpack_infinity :
    unpack Format.binary64 infinity.toBits.toBitVec = .infinity .positive := by
  rfl

theorem eq_infinity (bits : x.toBits.toBitVec = pack Format.binary64 (.infinity .positive)) :
    x = infinity := by
  apply Float.toBits_inj.mp
  apply UInt64.toBitVec_inj.mp
  rw [bits]
  decide +kernel

theorem infinity_div (right : StandsFor y w) : infinity / y = infinity := by
  apply eq_infinity
  show pack Format.binary64 (UnpackedFloat.div Format.binary64
    (unpack Format.binary64 infinity.toBits.toBitVec)
    (unpack Format.binary64 y.toBits.toBitVec)) = _
  rcases right.unpack with ⟨-, isZero⟩ | ⟨_, _, _, isSecond, -⟩
  · rw [unpack_infinity, isZero]
    rfl
  · rw [unpack_infinity, isSecond]
    rfl

theorem infinity_mul (right : StandsFor y w) (nonzero : w ≠ 0) : infinity * y = infinity := by
  apply eq_infinity
  show pack Format.binary64 (UnpackedFloat.mul Format.binary64
    (unpack Format.binary64 infinity.toBits.toBitVec)
    (unpack Format.binary64 y.toBits.toBitVec)) = _
  rcases right.unpack with ⟨none, -⟩ | ⟨_, _, _, isSecond, -⟩
  · exact absurd none nonzero
  · rw [unpack_infinity, isSecond]
    rfl

/-! ### Three roundings in a row -/

/-- Neither the number, nor its quotient by `s`, nor that quotient times `t` is rounded to
infinity, where each is computed from the one before as it was rounded. -/
structure StaysBelow (v s t : Rat) : Prop where
  number : v < leastInfinite
  quotient : rounded v / s < leastInfinite
  product : rounded (rounded v / s) * t < leastInfinite

/-- A number that is rounded, divided by a double and multiplied by another one ends in infinity,
unless it stays below what is rounded to infinity; then it ends in the number that is rounded at
each of the three steps. -/
theorem nearest_div_mul_cases (nonneg : 0 ≤ v) {divisor factor : Float} {s t : Rat}
    (first : StandsFor divisor s) (second : StandsFor factor t) (positive₁ : 0 < s)
    (positive₂ : 0 < t) :
    StaysBelow v s t ∧
        StandsFor (nearest v / divisor * factor) (rounded (rounded (rounded v / s) * t)) ∨
      ¬ StaysBelow v s t ∧ nearest v / divisor * factor = infinity := by
  rcases nearest_cases nonneg with ⟨fits₀, amount⟩ | ⟨large, infinite⟩
  · have nonneg₁ : 0 ≤ rounded v / s := div_nonneg (rounded_nonneg v) positive₁.le
    rw [div_eq_nearest amount first positive₁.ne']
    rcases nearest_cases nonneg₁ with ⟨fits₁, quotient⟩ | ⟨large, infinite⟩
    · have nonneg₂ : 0 ≤ rounded (rounded v / s) * t := mul_nonneg (rounded_nonneg _) positive₂.le
      rw [mul_eq_nearest quotient second]
      rcases nearest_cases nonneg₂ with ⟨fits₂, product⟩ | ⟨large, infinite⟩
      · exact Or.inl ⟨⟨fits₀, fits₁, fits₂⟩, product⟩
      · exact Or.inr ⟨fun below => not_le.mpr below.product large, infinite⟩
    · rw [infinite]
      exact Or.inr ⟨fun below => not_le.mpr below.quotient large,
        infinity_mul second positive₂.ne'⟩
  · rw [infinite, infinity_div first]
    exact Or.inr ⟨fun below => not_le.mpr below.number large, infinity_mul second positive₂.ne'⟩

end Binary

end Worksheet
