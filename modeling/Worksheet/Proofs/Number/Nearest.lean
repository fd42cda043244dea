/-
**Rounding a double to a double.**

The magnitude of a finite double is its mantissa times a power of two. Measured by its binary order
it has the same last place again, is a whole number of units there, and packs to the same bits: the
double nearest to it is the double without its sign.

* `binaryOrder_spec` and `binaryOrder_eq`: the binary order of a positive number is the only
  exponent with the number between its power of two and the next;
* `nearest_magnitude`: the double nearest to a double's magnitude.
-/

import Mathlib.Algebra.Order.Field.Power
import Mathlib.Algebra.Order.Field.Rat
import Mathlib.Tactic.GCongr
import Mathlib.Tactic.NormNum
import Mathlib.Tactic.Positivity
import Worksheet.Number.Nearest

namespace Worksheet

/-! ### Binary orders -/

/-- The binary order of a positive number puts it between two neighbouring powers of two. -/
theorem binaryOrder_spec {x : Rat} (positive : 0 < x) :
    (2 : Rat) ^ binaryOrder x ≤ x ∧ x < (2 : Rat) ^ (binaryOrder x + 1) := by
  have numerator : x.num.toNat ≠ 0 := by
    have := Rat.num_pos.mpr positive
    omega
  have top : ((x.num.toNat : Nat) : Rat) = x * x.den := by
    have nonneg : ((x.num.toNat : Nat) : Int) = x.num :=
      Int.toNat_of_nonneg (Rat.num_nonneg.mpr positive.le)
    rw [Rat.mul_den_eq_num, ← nonneg]
    rfl
  have numLow : (2 : Rat) ^ (x.num.toNat.log2 : Int) ≤ x * x.den := by
    rw [← top]
    exact_mod_cast Nat.log2_self_le numerator
  have numHigh : x * x.den < (2 : Rat) ^ (x.num.toNat.log2 + 1 : Int) := by
    rw [← top]
    exact_mod_cast Nat.lt_log2_self
  have denLow : (2 : Rat) ^ (x.den.log2 : Int) ≤ x.den := by
    exact_mod_cast Nat.log2_self_le x.den_nz
  have denHigh : (x.den : Rat) < (2 : Rat) ^ (x.den.log2 + 1 : Int) := by
    exact_mod_cast Nat.lt_log2_self
  have denPositive : (0 : Rat) < x.den := by exact_mod_cast x.den_pos
  have below : (2 : Rat) ^ ((x.num.toNat.log2 : Int) - x.den.log2 - 1) ≤ x := by
    refine le_of_mul_le_mul_right ?_ denPositive
    calc (2 : Rat) ^ ((x.num.toNat.log2 : Int) - x.den.log2 - 1) * x.den
        ≤ 2 ^ ((x.num.toNat.log2 : Int) - x.den.log2 - 1) * 2 ^ (x.den.log2 + 1 : Int) := by
          gcongr
      _ = 2 ^ (x.num.toNat.log2 : Int) := by
          rw [← zpow_add₀ (by norm_num)]
          congr 1
          omega
      _ ≤ x * x.den := numLow
  have above : x < (2 : Rat) ^ ((x.num.toNat.log2 : Int) - x.den.log2 + 1) := by
    refine lt_of_mul_lt_mul_right ?_ denPositive.le
    calc x * x.den < 2 ^ (x.num.toNat.log2 + 1 : Int) := numHigh
      _ = 2 ^ ((x.num.toNat.log2 : Int) - x.den.log2 + 1) * 2 ^ (x.den.log2 : Int) := by
          rw [← zpow_add₀ (by norm_num)]
          congr 1
          omega
      _ ≤ 2 ^ ((x.num.toNat.log2 : Int) - x.den.log2 + 1) * x.den := by gcongr
  unfold binaryOrder
  dsimp only
  split
  next less => exact ⟨below, by simpa using less⟩
  next more => exact ⟨not_lt.mp more, above⟩

/-- The binary order is the only such exponent. -/
theorem binaryOrder_eq {x : Rat} {e : Int} (low : (2 : Rat) ^ e ≤ x) (high : x < 2 ^ (e + 1)) :
    binaryOrder x = e := by
  have positive : 0 < x := lt_of_lt_of_le (by positivity) low
  obtain ⟨below, above⟩ := binaryOrder_spec positive
  have first : e < binaryOrder x + 1 :=
    (zpow_lt_zpow_iff_right₀ (by norm_num)).mp (lt_of_le_of_lt low above)
  have second : binaryOrder x < e + 1 :=
    (zpow_lt_zpow_iff_right₀ (by norm_num)).mp (lt_of_le_of_lt below high)
  omega

/-- The binary order of a number with 53 binary digits in front of a last place. -/
theorem binaryOrder_mul_zpow {mantissa : Nat} (e : Int) (low : 2 ^ 52 ≤ mantissa)
    (high : mantissa < 2 ^ 53) : binaryOrder ((mantissa : Rat) * (2 : Rat) ^ e) = e + 52 := by
  have power : (0 : Rat) < (2 : Rat) ^ e := by positivity
  apply binaryOrder_eq
  · rw [zpow_add₀ (by norm_num), mul_comm]
    gcongr
    exact_mod_cast low
  · rw [add_assoc, zpow_add₀ (by norm_num), mul_comm]
    gcongr
    exact_mod_cast high

/-! ### Rounding -/

/-- Rounding a whole number changes nothing. -/
theorem roundHalfEven_natCast (n : Nat) : roundHalfEven (n : Rat) = n := by
  have floor : (n : Rat).floor.toNat = n := by
    rw [← Int.cast_natCast, Rat.floor_intCast, Int.toNat_natCast]
  unfold roundHalfEven
  dsimp only
  rw [floor, sub_self, if_pos (by norm_num)]

namespace Binary

@[simp] theorem negative_ofMagnitude (negative : Bool) (bits : Nat) :
    (ofMagnitude negative bits).negative = negative := by
  unfold ofMagnitude
  dsimp only
  split <;> rfl

theorem ofMagnitude_subnormal (negative : Bool) {bits : Nat} (zeroField : bits / hiddenBit = 0) :
    ofMagnitude negative bits = ⟨negative, bits % hiddenBit, leastExponent⟩ := by
  unfold ofMagnitude
  dsimp only
  rw [if_pos zeroField]

theorem ofMagnitude_normal (negative : Bool) {bits : Nat} (field : Nat)
    (normal : bits / hiddenBit = field + 1) :
    ofMagnitude negative bits =
      ⟨negative, hiddenBit + bits % hiddenBit, leastExponent + (field : Int)⟩ := by
  unfold ofMagnitude
  dsimp only
  rw [if_neg (by omega), normal, Nat.add_sub_cancel]

/-- The last place of a finite double, found again from its magnitude. -/
theorem lastPlace_magnitude (negative : Bool) (bits : Nat) :
    lastPlace (ofMagnitude negative bits).magnitude = (ofMagnitude negative bits).exponent := by
  have hidden : hiddenBit = 2 ^ 52 := rfl
  have small : bits % hiddenBit < 2 ^ 52 := Nat.mod_lt _ (by decide)
  cases exponentField : bits / hiddenBit with
  | zero =>
    rw [ofMagnitude_subnormal negative exponentField]
    show lastPlace (((bits % hiddenBit : Nat) : Rat) * 2 ^ leastExponent) = leastExponent
    unfold lastPlace
    split
    next => rfl
    next positive =>
      have above : ((bits % hiddenBit : Nat) : Rat) * 2 ^ leastExponent < 2 ^ (-1022 : Int) := by
        calc ((bits % hiddenBit : Nat) : Rat) * 2 ^ leastExponent
            < 2 ^ (52 : Int) * 2 ^ leastExponent := by
              gcongr
              exact_mod_cast small
          _ = 2 ^ (-1022 : Int) := by
              rw [← zpow_add₀ (by norm_num)]
              rfl
      obtain ⟨below, _⟩ := binaryOrder_spec (not_le.mp positive)
      have order : binaryOrder (((bits % hiddenBit : Nat) : Rat) * 2 ^ leastExponent) < -1022 :=
        (zpow_lt_zpow_iff_right₀ (by norm_num)).mp (lt_of_le_of_lt below above)
      refine max_eq_right ?_
      unfold leastExponent at *
      omega
  | succ field =>
    rw [ofMagnitude_normal negative field exponentField]
    show lastPlace (((hiddenBit + bits % hiddenBit : Nat) : Rat) *
      2 ^ (leastExponent + (field : Int))) = leastExponent + (field : Int)
    have positive : (0 : Rat) < ((hiddenBit + bits % hiddenBit : Nat) : Rat) *
        2 ^ (leastExponent + (field : Int)) := by
      have mantissa : 0 < hiddenBit + bits % hiddenBit := by omega
      positivity
    unfold lastPlace
    rw [if_neg (not_le.mpr positive), binaryOrder_mul_zpow _ (by omega) (by omega)]
    omega

/-- Packing the mantissa of a finite double at its last place gives its bits. -/
theorem packedBits_ofMagnitude (negative : Bool) {bits : Nat} (finite : bits < infinityBits) :
    packedBits (ofMagnitude negative bits).exponent (ofMagnitude negative bits).mantissa = bits := by
  have division := Nat.div_add_mod bits hiddenBit
  cases exponentField : bits / hiddenBit with
  | zero =>
    rw [ofMagnitude_subnormal negative exponentField]
    rw [exponentField, Nat.mul_zero, Nat.zero_add] at division
    show min ((leastExponent - leastExponent).toNat * hiddenBit + bits % hiddenBit) infinityBits =
      bits
    rw [Int.sub_self, Int.toNat_zero, Nat.zero_mul, Nat.zero_add, division, min_eq_left finite.le]
  | succ field =>
    have steps : (leastExponent + (field : Int) - leastExponent).toNat = field := by omega
    have whole : field * hiddenBit + (hiddenBit + bits % hiddenBit) = bits := by
      rw [exponentField, Nat.mul_comm, Nat.succ_mul] at division
      omega
    rw [ofMagnitude_normal negative field exponentField]
    show min ((leastExponent + (field : Int) - leastExponent).toNat * hiddenBit +
      (hiddenBit + bits % hiddenBit)) infinityBits = bits
    rw [steps, whole, min_eq_left finite.le]

/-- **A double is the nearest double to its own magnitude.** -/
theorem nearest_magnitude (negative : Bool) {bits : Nat} (finite : bits < infinityBits) :
    nearest (ofMagnitude negative bits).magnitude = Float.ofBits (UInt64.ofNat bits) := by
  have units : (ofMagnitude negative bits).magnitude / 2 ^ (ofMagnitude negative bits).exponent =
      ((ofMagnitude negative bits).mantissa : Nat) := by
    unfold magnitude
    exact mul_div_cancel_right₀ _ (by positivity)
  unfold nearest
  dsimp only
  rw [lastPlace_magnitude, units, roundHalfEven_natCast, packedBits_ofMagnitude negative finite]

end Binary

end Worksheet
