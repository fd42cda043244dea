/-
**Sums, differences and signed products of doubles.**

The model brings two doubles to the smaller of their exponents, adds or subtracts the whole numbers
of units and rounds. What results stands for the exact sum or difference, rounded.

* `Denotes.neg` and `ofFloat?_abs`: negation and the absolute value only touch the sign;
* `Denotes.sub`, `Denotes.add` and `Denotes.mul` say what the operations denote.
-/

import Worksheet.Proofs.Number.Products
import Worksheet.Proofs.Number.Signed

namespace Worksheet

namespace Binary

open Float.Model (Format UnpackedFloat totalExponent)
open Float.Model.UnpackedFloat

variable {x y : Float} {v w : Rat}

/-! ### Changing the sign -/

/-- Packing what a finite double unpacks to gives its bits. -/
theorem pack_unpack_toBits (finite : x.isFinite = true) :
    pack Format.binary64 (unpack Format.binary64 x.toBits.toBitVec) = x.toBits.toBitVec := by
  obtain ⟨sign, exponent, fraction, bits, magnitude, -⟩ := exists_fields_toBits x
  have ordinary := exponent_ne_of_finite exponent fraction ((isFinite_iff x).mp finite) magnitude
  rw [bits, pack_unpack_fields _ _ _ (fun last => absurd last ordinary)]

/-- The negation of a finite double unpacks to the negation. -/
theorem unpack_neg (finite : x.isFinite = true) :
    unpack Format.binary64 (-x).toBits.toBitVec =
      (unpack Format.binary64 x.toBits.toBitVec).neg := by
  obtain ⟨sign, exponent, fraction, bits, magnitude, -⟩ := exists_fields_toBits x
  have ordinary := exponent_ne_of_finite exponent fraction ((isFinite_iff x).mp finite) magnitude
  rw [toBitVec_neg bits ordinary, bits, neg_unpack_fields]

/-- The absolute value of a finite double has the other fields and no sign. -/
theorem toBitVec_abs {sign : Sign} {exponent : BitVec 11} {fraction : BitVec 52}
    (bits : x.toBits.toBitVec = fields sign exponent fraction) (ordinary : exponent ≠ -1#11) :
    x.abs.toBits.toBitVec = fields .positive exponent fraction := by
  have unsigned : (unpack Format.binary64 (fields sign exponent fraction)).abs =
      unpack Format.binary64 (fields .positive exponent fraction) := by
    rw [unpack_fields, unpack_fields, if_neg ordinary, if_neg ordinary]
    split
    · split <;> rfl
    · rfl
  show pack Format.binary64 (unpack Format.binary64 x.toBits.toBitVec).abs = _
  rw [bits, unsigned, pack_unpack_fields _ _ _ (fun last => absurd last ordinary)]

/-- A double with another sign denotes the number with that sign. -/
theorem denotes_of_fields {sign other : Sign} {exponent : BitVec 11} {fraction : BitVec 52}
    (bits : x.toBits.toBitVec = fields sign exponent fraction)
    (others : y.toBits.toBitVec = fields other exponent fraction) (denotes : Denotes x v) :
    Denotes y (signed (other * sign) v) := by
  obtain ⟨finite, rfl⟩ := (denotes_iff (hasSignBit_of_fields bits)).mp denotes
  have same : magnitudeBits y = magnitudeBits x := by
    rw [magnitudeBits_of_fields bits, magnitudeBits_of_fields others]
  refine (denotes_iff (hasSignBit_of_fields others)).mpr ⟨?_, ?_⟩
  · rwa [isFinite_iff, same, ← isFinite_iff]
  · rw [same]
    cases sign <;> cases other <;> simp [signed]

/-- The negation of a double denotes the negated number. -/
theorem Denotes.neg (denotes : Denotes x v) : Denotes (-x) (-v) := by
  obtain ⟨sign, exponent, fraction, bits, magnitude, -⟩ := exists_fields_toBits x
  have ordinary := exponent_ne_of_finite exponent fraction
    ((isFinite_iff x).mp denotes.isFinite) magnitude
  have negated := denotes_of_fields bits (toBitVec_neg bits ordinary) denotes
  cases sign <;> exact negated

/-- What the absolute value of a finite double decodes to. -/
theorem ofFloat?_abs (finite : x.isFinite = true) :
    ofFloat? x.abs = some (ofMagnitude false (magnitudeBits x)) := by
  obtain ⟨sign, exponent, fraction, bits, magnitude, -⟩ := exists_fields_toBits x
  have below := (isFinite_iff x).mp finite
  have unsigned := toBitVec_abs bits (exponent_ne_of_finite exponent fraction below magnitude)
  have same : magnitudeBits x.abs = magnitudeBits x := by
    rw [magnitudeBits_of_fields bits, magnitudeBits_of_fields unsigned]
  have noSign : hasSignBit x.abs = false := by
    rw [← Bool.not_eq_true, hasSignBit_of_fields unsigned]
    exact fun equal => nomatch equal
  rw [← same] at below ⊢
  rw [ofFloat?_of_isFinite ((isFinite_iff _).mpr below), noSign]

/-! ### Differences and sums -/

/-- A mantissa that is brought to a smaller exponent counts the same number. -/
theorem signed_decreaseExponent (sign : Sign) (mantissa : Nat) {exponent target : Int}
    (within : target ≤ exponent) :
    ((sign.apply (decreaseExponent mantissa exponent target).1 : Int) : Rat) * 2 ^ target =
      signed sign (mantissa * 2 ^ exponent) := by
  obtain ⟨step, rfl⟩ := Int.le.dest within
  have steps : (target + (step : Int) - target).toNat = step := by omega
  unfold decreaseExponent
  dsimp only
  rw [steps, cast_apply_mul, Nat.shiftLeft_eq, zpow_add₀ (by norm_num), zpow_natCast]
  push_cast
  ring_nf

/-- **The difference of doubles** denotes the difference, rounded. -/
theorem Denotes.sub (left : Denotes x v) (right : Denotes y w) (fits : |v - w| < leastInfinite) :
    Denotes (x - y) (roundedSigned (v - w)) := by
  have difference : (x - y).toBits.toBitVec = pack Format.binary64
      (UnpackedFloat.sub Format.binary64 (unpack Format.binary64 x.toBits.toBitVec)
        (unpack Format.binary64 y.toBits.toBitVec)) := rfl
  obtain ⟨s₂, -, ⟨rfl, isZero⟩ | ⟨m₂, e₂, positive₂, isSecond, isW, -⟩⟩ := right.unpack_cases
  · rw [sub_zero, roundedSigned_eq_self left.hasFewDigits]
    rw [isZero] at difference
    obtain ⟨s₁, -, ⟨rfl, isZero⟩ | ⟨m₁, e₁, positive₁, isFirst, -⟩⟩ := left.unpack_cases
    · rw [isZero] at difference
      cases s₁ <;> cases s₂ <;> exact denotes_zero difference
    · rw [isFirst] at difference
      have same : x - y = x := by
        apply Float.toBits_inj.mp
        apply UInt64.toBitVec_inj.mp
        rw [difference, ← pack_unpack_toBits left.isFinite, isFirst]
        rfl
      rwa [same]
  · obtain ⟨s₁, -, ⟨rfl, isZero⟩ | ⟨m₁, e₁, positive₁, isFirst, rfl, -⟩⟩ := left.unpack_cases
    · rw [zero_sub, roundedSigned_eq_self right.neg.hasFewDigits]
      have same : x - y = -y := by
        apply Float.toBits_inj.mp
        apply UInt64.toBitVec_inj.mp
        rw [difference, ← pack_unpack_toBits right.neg.isFinite, unpack_neg right.isFinite, isZero,
          isSecond]
        rfl
      rw [same]
      exact right.neg
    · rw [isFirst, isSecond] at difference
      have value : (((s₁.apply (decreaseExponent m₁ e₁ (min e₁ e₂)).1 -
          s₂.apply (decreaseExponent m₂ e₂ (min e₁ e₂)).1 : Int)) : Rat) * 2 ^ min e₁ e₂ =
            signed s₁ (m₁ * 2 ^ e₁) - w := by
        rw [Int.cast_sub, sub_mul, signed_decreaseExponent s₁ m₁ (min_le_left e₁ e₂),
          signed_decreaseExponent s₂ m₂ (min_le_right e₁ e₂), isW]
      rw [← value] at fits ⊢
      exact denotes_normalize fits difference

theorem unpacked_add_eq_sub_neg (a b : UnpackedFloat) :
    UnpackedFloat.add Format.binary64 a b = UnpackedFloat.sub Format.binary64 a b.neg := by
  cases a with
  | notANumber => rfl
  | infinity s =>
    cases b with
    | infinity t => cases s <;> cases t <;> rfl
    | _ => rfl
  | zero s =>
    cases b with
    | zero t => cases s <;> cases t <;> rfl
    | infinity t => cases t <;> rfl
    | finite t => cases t <;> rfl
    | notANumber => rfl
  | finite s₁ m₁ e₁ =>
    cases b with
    | finite s₂ m₂ e₂ =>
      have turned (m : Nat) : (-s₂).apply m = -s₂.apply m := by
        cases s₂
        · exact (neg_neg _).symm
        · rfl
      unfold UnpackedFloat.add UnpackedFloat.sub UnpackedFloat.neg
      dsimp only
      rw [turned, sub_neg_eq_add]
    | infinity t => cases t <;> rfl
    | _ => rfl

/-- A sum is the difference from the negation. -/
theorem add_eq_sub_neg (finite : y.isFinite = true) : x + y = x - -y := by
  apply Float.toBits_inj.mp
  apply UInt64.toBitVec_inj.mp
  show pack Format.binary64 (UnpackedFloat.add Format.binary64
    (unpack Format.binary64 x.toBits.toBitVec) (unpack Format.binary64 y.toBits.toBitVec)) =
      pack Format.binary64 (UnpackedFloat.sub Format.binary64
        (unpack Format.binary64 x.toBits.toBitVec) (unpack Format.binary64 (-y).toBits.toBitVec))
  rw [unpack_neg finite, unpacked_add_eq_sub_neg]

/-- **The sum of doubles** denotes the sum, rounded. -/
theorem Denotes.add (left : Denotes x v) (right : Denotes y w) (fits : |v + w| < leastInfinite) :
    Denotes (x + y) (roundedSigned (v + w)) := by
  rw [add_eq_sub_neg right.isFinite, ← sub_neg_eq_add]
  exact left.sub right.neg (by rwa [sub_neg_eq_add])

/-! ### Products -/

/-- **The product of doubles** denotes the product, rounded. -/
theorem Denotes.mul (left : Denotes x v) (right : Denotes y w) (fits : |v * w| < leastInfinite) :
    Denotes (x * y) (roundedSigned (v * w)) := by
  have product : (x * y).toBits.toBitVec = pack Format.binary64
      (UnpackedFloat.mul Format.binary64 (unpack Format.binary64 x.toBits.toBitVec)
        (unpack Format.binary64 y.toBits.toBitVec)) := rfl
  have zero : roundedSigned 0 = 0 := by
    rw [roundedSigned_of_nonneg le_rfl, rounded_zero]
  obtain ⟨s₁, -, ⟨rfl, isZero⟩ | ⟨m₁, e₁, positive₁, isFirst, rfl, least₁, -, full₁⟩⟩ :=
    left.unpack_cases
  · rw [zero_mul, zero]
    rw [isZero] at product
    obtain ⟨s₂, -, ⟨-, isZero⟩ | ⟨m₂, e₂, positive₂, isSecond, -⟩⟩ := right.unpack_cases
    · rw [isZero] at product
      exact denotes_zero product
    · rw [isSecond] at product
      exact denotes_zero product
  · rw [isFirst] at product
    obtain ⟨s₂, -, ⟨rfl, isZero⟩ | ⟨m₂, e₂, positive₂, isSecond, rfl, least₂, -, full₂⟩⟩ :=
      right.unpack_cases
    · rw [mul_zero, zero]
      rw [isZero] at product
      exact denotes_zero product
    · rw [isSecond] at product
      have magnitude : (m₁ : Rat) * 2 ^ e₁ * (m₂ * 2 ^ e₂) = (m₁ * m₂ : Nat) * 2 ^ (e₁ + e₂) := by
        rw [zpow_add₀ (by norm_num)]
        push_cast
        ring
      have power : (0 : Rat) < 2 ^ (e₁ + e₂) := by positivity
      rw [← signed_mul, magnitude] at fits ⊢
      rw [abs_signed _ (by positivity)] at fits
      rw [roundedSigned_signed _ (by positivity)]
      refine denotes_roundWithAccuracy (by positivity) ?_ ?_ fits product
      · rw [mul_div_cancel_right₀ _ power.ne']
        rfl
      · exact le_targetExponent_mul positive₁ positive₂ least₁ least₂ full₁ full₂

end Binary

end Worksheet
