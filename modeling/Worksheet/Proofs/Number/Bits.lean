/-
**Doubles and their bits.**

The model of a double unpacks its bits, computes and packs the result again. What is unpacked is
written out here once, over the three fields of a bit pattern; what follows speaks of a sign bit and
of the other bits as one whole number.

* `Binary.magnitudeBits` is the bit pattern of a double without its sign bit;
* `isFinite_iff`, `beq_zero_iff` and `lt_zero_iff` read the tests of a double off its bits;
* `toBits_ofBits`, `ofBits_magnitudeBits` and `neg_ofBits_magnitudeBits` make doubles from bits;
* `isFinite_neg`: negation keeps a double finite.
-/

import Mathlib
import Worksheet.Number.Binary

namespace Worksheet

namespace Binary

open Float.Model (Format UnpackedFloat)
open Float.Model.UnpackedFloat

/-! ### The fields of a bit pattern -/

/-- The bit pattern with the given sign, exponent field and fraction. -/
abbrev fields (sign : Sign) (exponent : BitVec 11) (fraction : BitVec 52) : BitVec 64 :=
  packComponents Format.binary64 sign exponent fraction

variable (sign : Sign) (exponent : BitVec 11) (fraction : BitVec 52)

theorem toNat_fields :
    (fields sign exponent fraction).toNat =
      (sign.toBitVec.toNat * 2 ^ 11 + exponent.toNat) * 2 ^ 52 + fraction.toNat := by
  unfold fields packComponents
  rw [BitVec.toNat_append, ← Nat.shiftLeft_add_eq_or_of_lt fraction.isLt, BitVec.toNat_append,
    ← Nat.shiftLeft_add_eq_or_of_lt exponent.isLt, Nat.shiftLeft_eq, Nat.shiftLeft_eq]

/-- Every bit pattern has its three fields. -/
theorem exists_fields (bits : BitVec 64) :
    ∃ sign exponent fraction, bits = fields sign exponent fraction :=
  ⟨_, _, _, (@packComponents_unpackSign_unpackExponent_unpackMantissa Format.binary64 bits).symm⟩

theorem toNat_hidden_append : (1#1 ++ fraction).toNat = 2 ^ 52 + fraction.toNat := by
  rw [BitVec.toNat_append, ← Nat.shiftLeft_add_eq_or_of_lt fraction.isLt]
  rfl

/-! ### Unpacking and packing -/

/-- What a bit pattern unpacks to, by its fields. -/
theorem unpack_fields :
    unpack Format.binary64 (fields sign exponent fraction) =
      if exponent = -1#11 then
        if fraction = 0#52 then .infinity sign else .notANumber
      else if exponent = 0#11 then
        if isZero : fraction = 0#52 then .zero sign
        else .finite sign fraction.toNat (-1074)
          (by simpa [BitVec.toNat_pos, BitVec.pos_iff_ne_zero])
      else .finite sign (1#1 ++ fraction).toNat (exponent.toNat - 1075)
          (by rw [toNat_hidden_append]; omega) := by
  unfold UnpackedFloat.unpack
  simp only [unpackMantissa_packComponents, unpackExponent_packComponents,
    unpackSign_packComponents, Sign.ofBitVec_toBitVec]
  by_cases zeroField : exponent = 0#11
  · subst zeroField
    rfl
  · simp only [if_neg zeroField]
    rfl

theorem neg_unpack_fields :
    (unpack Format.binary64 (fields sign exponent fraction)).neg =
      unpack Format.binary64 (fields (-sign) exponent fraction) := by
  rw [unpack_fields, unpack_fields]
  split
  · split <;> rfl
  · split
    · split <;> rfl
    · rfl

/-- Packing undoes unpacking, except for the patterns of NaN. -/
theorem pack_unpack_fields (number : exponent = -1#11 → fraction = 0#52) :
    pack Format.binary64 (unpack Format.binary64 (fields sign exponent fraction)) =
      fields sign exponent fraction := by
  have valid : ¬ @isNaNBits Format.binary64 (fields sign exponent fraction) = true := by
    rw [isNaNBits, unpackExponent_packComponents, unpackMantissa_packComponents, decide_eq_true_eq]
    rintro ⟨last, payload⟩
    exact payload (number last)
  rw [pack_unpack, if_neg valid]

/-! ### The bits of a double -/

/-- The bit pattern without its sign bit. -/
def magnitudeBits (x : Float) : Nat :=
  x.toBits.toNat % signBit

/-- The magnitude of a double, by its fields. -/
theorem magnitudeBits_of_fields {x : Float} {sign : Sign} {exponent : BitVec 11}
    {fraction : BitVec 52} (bits : x.toBits.toBitVec = fields sign exponent fraction) :
    magnitudeBits x = exponent.toNat * 2 ^ 52 + fraction.toNat := by
  have whole : x.toBits.toNat =
      (sign.toBitVec.toNat * 2 ^ 11 + exponent.toNat) * 2 ^ 52 + fraction.toNat := by
    rw [← toNat_fields, ← bits]
    rfl
  have field := exponent.isLt
  have small := fraction.isLt
  unfold magnitudeBits signBit
  cases sign with
  | negative =>
    change _ = (1 * 2 ^ 11 + _) * 2 ^ 52 + _ at whole
    omega
  | positive =>
    change _ = (0 * 2 ^ 11 + _) * 2 ^ 52 + _ at whole
    omega

/-- The sign bit of a double, by its fields. -/
theorem hasSignBit_of_fields {x : Float} {sign : Sign} {exponent : BitVec 11}
    {fraction : BitVec 52} (bits : x.toBits.toBitVec = fields sign exponent fraction) :
    hasSignBit x = true ↔ sign = .negative := by
  have whole : x.toBits.toNat =
      (sign.toBitVec.toNat * 2 ^ 11 + exponent.toNat) * 2 ^ 52 + fraction.toNat := by
    rw [← toNat_fields, ← bits]
    rfl
  have field := exponent.isLt
  have small := fraction.isLt
  unfold hasSignBit signBit
  rw [decide_eq_true_eq]
  cases sign with
  | negative =>
    change _ = (1 * 2 ^ 11 + _) * 2 ^ 52 + _ at whole
    rw [iff_true_right rfl]
    omega
  | positive =>
    change _ = (0 * 2 ^ 11 + _) * 2 ^ 52 + _ at whole
    rw [iff_false_right (fun equal => nomatch equal)]
    omega

/-- The fields of a double, and its sign bit and magnitude in terms of them. -/
theorem exists_fields_toBits (x : Float) :
    ∃ sign exponent fraction, x.toBits.toBitVec = fields sign exponent fraction ∧
      magnitudeBits x = exponent.toNat * 2 ^ 52 + fraction.toNat ∧
      (hasSignBit x = true ↔ sign = .negative) := by
  obtain ⟨sign, exponent, fraction, bits⟩ := exists_fields x.toBits.toBitVec
  exact ⟨sign, exponent, fraction, bits, magnitudeBits_of_fields bits, hasSignBit_of_fields bits⟩

/-- The exponent field of a finite magnitude is not the last one. -/
theorem exponent_ne_of_finite {x : Float} (finite : magnitudeBits x < infinityBits)
    (magnitude : magnitudeBits x = exponent.toNat * 2 ^ 52 + fraction.toNat) :
    exponent ≠ -1#11 := by
  rintro rfl
  rw [magnitude] at finite
  change 2047 * 2 ^ 52 + fraction.toNat < 0x7FF0000000000000 at finite
  omega

theorem isFinite_iff (x : Float) : x.isFinite = true ↔ magnitudeBits x < infinityBits := by
  obtain ⟨sign, exponent, fraction, bits, magnitude, _⟩ := exists_fields_toBits x
  show (unpack Format.binary64 x.toBits.toBitVec).isFinite = true ↔ _
  rw [bits, unpack_fields]
  by_cases infinite : exponent = -1#11
  · have above : ¬ magnitudeBits x < infinityBits := fun finite =>
      exponent_ne_of_finite exponent fraction finite magnitude infinite
    rw [if_pos infinite, iff_false_right above]
    split <;> exact Bool.false_ne_true
  · have notLast : exponent.toNat ≠ 2047 := fun last => infinite (BitVec.eq_of_toNat_eq last)
    have below : magnitudeBits x < infinityBits := by
      have field := exponent.isLt
      have small := fraction.isLt
      unfold infinityBits
      omega
    rw [if_neg infinite, iff_true_right below]
    split
    · split <;> rfl
    · rfl

/-- How a finite double compares with zero, by its bits. -/
theorem compare_zero {x : Float} (finite : x.isFinite = true) :
    (unpack Format.binary64 x.toBits.toBitVec).compare
        (unpack Format.binary64 (0 : Float).toBits.toBitVec) =
      some (if magnitudeBits x = 0 then .eq else if hasSignBit x then .lt else .gt) := by
  obtain ⟨sign, exponent, fraction, bits, magnitude, negative⟩ := exists_fields_toBits x
  have ordinary := exponent_ne_of_finite exponent fraction ((isFinite_iff x).mp finite) magnitude
  show (unpack Format.binary64 x.toBits.toBitVec).compare (.zero .positive) = _
  rw [bits, unpack_fields, if_neg ordinary, magnitude]
  by_cases zeroField : exponent = 0#11
  · by_cases isZero : fraction = 0#52
    · have none : exponent.toNat * 2 ^ 52 + fraction.toNat = 0 := by
        rw [zeroField, isZero]
        rfl
      rw [if_pos zeroField, dif_pos isZero, if_pos none]
      rfl
    · have positive : exponent.toNat * 2 ^ 52 + fraction.toNat ≠ 0 := fun none =>
        isZero (BitVec.eq_of_toNat_eq (by show _ = 0; omega))
      rw [if_pos zeroField, dif_neg isZero, if_neg positive]
      cases sign with
      | negative => rw [if_pos (negative.mpr rfl)]; rfl
      | positive => rw [if_neg (fun set => nomatch negative.mp set)]; rfl
  · have field : exponent.toNat ≠ 0 := fun none => zeroField (BitVec.eq_of_toNat_eq none)
    rw [if_neg zeroField, if_neg (by omega)]
    cases sign with
    | negative => rw [if_pos (negative.mpr rfl)]; rfl
    | positive => rw [if_neg (fun set => nomatch negative.mp set)]; rfl

/-- The finite doubles that equal zero have no bits but the sign. -/
theorem beq_zero_iff {x : Float} (finite : x.isFinite = true) :
    (x == 0) = true ↔ magnitudeBits x = 0 := by
  show ((unpack Format.binary64 x.toBits.toBitVec).compare
    (unpack Format.binary64 (0 : Float).toBits.toBitVec) == some .eq) = true ↔ _
  rw [compare_zero finite]
  by_cases zero : magnitudeBits x = 0
  · rw [if_pos zero, iff_true_right zero]
    rfl
  · rw [if_neg zero, iff_false_right zero]
    split <;> decide

/-- The finite doubles below zero have the sign bit and another one. -/
theorem lt_zero_iff {x : Float} (finite : x.isFinite = true) :
    x < 0 ↔ hasSignBit x = true ∧ magnitudeBits x ≠ 0 := by
  show decide (((unpack Format.binary64 x.toBits.toBitVec).compare
    (unpack Format.binary64 (0 : Float).toBits.toBitVec) == some .lt) = true) = true ↔ _
  rw [decide_eq_true_eq, compare_zero finite]
  by_cases zero : magnitudeBits x = 0
  · rw [if_pos zero, iff_false_right (fun both => both.2 zero)]
    decide
  · rw [if_neg zero, and_iff_left zero]
    split
    next set => rw [iff_true_right set]; rfl
    next clear => rw [iff_false_right clear]; decide

/-! ### Doubles from bits -/

/-- The bits of a double made from bits, unless these are a pattern of NaN. -/
theorem toBits_ofBits {bits : UInt64} (number : bits.toNat % signBit ≤ infinityBits) :
    (Float.ofBits bits).toBits = bits := by
  obtain ⟨sign, exponent, fraction, fieldsOfBits⟩ := exists_fields bits.toBitVec
  have whole : bits.toNat =
      (sign.toBitVec.toNat * 2 ^ 11 + exponent.toNat) * 2 ^ 52 + fraction.toNat := by
    rw [← toNat_fields, ← fieldsOfBits]
    rfl
  have small := fraction.isLt
  unfold signBit infinityBits at number
  have noPayload : exponent = -1#11 → fraction = 0#52 := by
    rintro rfl
    change bits.toNat = (_ * 2 ^ 11 + 2047) * 2 ^ 52 + _ at whole
    apply BitVec.eq_of_toNat_eq
    show fraction.toNat = 0
    omega
  show UInt64.ofBitVec (pack Format.binary64 (unpack Format.binary64 bits.toBitVec)) = bits
  rw [fieldsOfBits, pack_unpack_fields sign exponent fraction noPayload, ← fieldsOfBits]

/-- The bits of a finite double's magnitude. -/
theorem toNat_ofBits_magnitudeBits {x : Float} (finite : x.isFinite = true) :
    (Float.ofBits (UInt64.ofNat (magnitudeBits x))).toBits.toNat = magnitudeBits x := by
  have below := (isFinite_iff x).mp finite
  unfold infinityBits at below
  have value : (UInt64.ofNat (magnitudeBits x)).toNat = magnitudeBits x :=
    UInt64.toNat_ofNat_of_lt' (by show _ < 2 ^ 64; omega)
  rw [toBits_ofBits, value]
  rw [value]
  unfold signBit infinityBits
  omega

/-- A finite double without sign bit is its magnitude. -/
theorem ofBits_magnitudeBits {x : Float} (finite : x.isFinite = true)
    (noSign : hasSignBit x = false) : Float.ofBits (UInt64.ofNat (magnitudeBits x)) = x := by
  have clear : ¬ signBit ≤ x.toBits.toNat := of_decide_eq_false noSign
  apply Float.toBits_inj.mp
  apply UInt64.toNat_inj.mp
  rw [toNat_ofBits_magnitudeBits finite]
  exact Nat.mod_eq_of_lt (Nat.not_le.mp clear)

/-! ### Negation -/

/-- Negation turns the sign of a finite double and keeps the other fields. -/
theorem toBitVec_neg {x : Float} {sign : Sign} {exponent : BitVec 11} {fraction : BitVec 52}
    (bits : x.toBits.toBitVec = fields sign exponent fraction) (ordinary : exponent ≠ -1#11) :
    (-x).toBits.toBitVec = fields (-sign) exponent fraction := by
  show pack Format.binary64 (unpack Format.binary64 x.toBits.toBitVec).neg = _
  rw [bits, neg_unpack_fields, pack_unpack_fields _ _ _ (fun last => absurd last ordinary)]

/-- A finite double stays finite when it is negated. -/
theorem isFinite_neg {x : Float} (finite : x.isFinite = true) : (-x).isFinite = true := by
  rw [isFinite_iff] at finite ⊢
  obtain ⟨sign, exponent, fraction, bits, magnitude, -⟩ := exists_fields_toBits x
  have ordinary := exponent_ne_of_finite exponent fraction finite magnitude
  rw [magnitudeBits_of_fields (toBitVec_neg bits ordinary), ← magnitude]
  exact finite

/-- A finite double with sign bit is its negated magnitude. -/
theorem neg_ofBits_magnitudeBits {x : Float} (finite : x.isFinite = true)
    (set : hasSignBit x = true) : -Float.ofBits (UInt64.ofNat (magnitudeBits x)) = x := by
  obtain ⟨sign, exponent, fraction, bits, magnitude, negative⟩ := exists_fields_toBits x
  have ordinary := exponent_ne_of_finite exponent fraction ((isFinite_iff x).mp finite) magnitude
  have unsigned : (Float.ofBits (UInt64.ofNat (magnitudeBits x))).toBits.toBitVec =
      fields .positive exponent fraction := by
    apply BitVec.eq_of_toNat_eq
    rw [toNat_fields]
    show (Float.ofBits (UInt64.ofNat (magnitudeBits x))).toBits.toNat =
      (0 * 2 ^ 11 + _) * 2 ^ 52 + _
    rw [toNat_ofBits_magnitudeBits finite, magnitude, Nat.zero_mul, Nat.zero_add]
  apply Float.toBits_inj.mp
  apply UInt64.toBitVec_inj.mp
  rw [toBitVec_neg unsigned ordinary, bits, negative.mp set]
  rfl

end Binary

end Worksheet
