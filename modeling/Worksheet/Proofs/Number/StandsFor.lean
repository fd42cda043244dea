/-
**The numbers that doubles stand for.**

A finite double without sign stands for a number. The double nearest to a number stands for the
number rounded to its last place, unless that number is half a unit above the largest double or
more; then the nearest double is infinity.

* `StandsFor` says what a double stands for, and `StandsFor.unpack` what it unpacks to;
* `rounded` is a number rounded to its last place, and `rounded_le` bounds what rounding adds;
* `nearest_cases`: what the nearest double is.
-/

import Worksheet.Proofs.Number.Rounding

namespace Worksheet

namespace Binary

open Float.Model (Format UnpackedFloat totalExponent)
open Float.Model.UnpackedFloat

/-! ### The number that a double stands for -/

/-- The double is finite, has no sign, and stands for the number. -/
def StandsFor (x : Float) (number : Rat) : Prop :=
  x.isFinite = true ∧ hasSignBit x = false ∧
    (ofMagnitude false (magnitudeBits x)).magnitude = number

variable {x : Float} {v : Rat}

/-- What a finite double unpacks to: a zero, or a mantissa and an exponent. -/
theorem exists_unpack (finite : x.isFinite = true) :
    ∃ sign, (hasSignBit x = true ↔ sign = .negative) ∧
      ((ofMagnitude false (magnitudeBits x)).magnitude = 0 ∧
          unpack Format.binary64 x.toBits.toBitVec = .zero sign ∨
        ∃ mantissa exponent positive,
          unpack Format.binary64 x.toBits.toBitVec = .finite sign mantissa exponent positive ∧
            (ofMagnitude false (magnitudeBits x)).magnitude = mantissa * 2 ^ exponent ∧
              leastExponent ≤ exponent ∧ mantissa < 2 ^ 53 ∧
                (2 ^ 52 ≤ mantissa ∨ exponent = leastExponent)) := by
  obtain ⟨sign, exponent, fraction, bits, magnitude, negative⟩ := exists_fields_toBits x
  have ordinary := exponent_ne_of_finite exponent fraction ((isFinite_iff x).mp finite) magnitude
  refine ⟨sign, negative, ?_⟩
  have small := fraction.isLt
  rw [bits, unpack_fields, if_neg ordinary, magnitude]
  have hidden : hiddenBit = 2 ^ 52 := rfl
  by_cases zeroField : exponent = 0#11
  · -- Without the hidden bit: zero, or fewer digits at the least exponent.
    subst zeroField
    have field : ((0#11).toNat * 2 ^ 52 + fraction.toNat) / hiddenBit = 0 := by
      rw [hidden, BitVec.toNat_ofNat]
      omega
    have rest : ((0#11).toNat * 2 ^ 52 + fraction.toNat) % hiddenBit = fraction.toNat := by
      rw [hidden, BitVec.toNat_ofNat]
      omega
    rw [ofMagnitude_subnormal false field, rest]
    by_cases zero : fraction = 0#52
    · rw [if_pos rfl, dif_pos zero]
      exact Or.inl ⟨by simp [Binary.magnitude, zero], rfl⟩
    · rw [if_pos rfl, dif_neg zero]
      exact Or.inr ⟨_, _, _, rfl, rfl, le_rfl, by omega, Or.inr rfl⟩
  · have field : exponent.toNat ≠ 0 := fun none => zeroField (BitVec.eq_of_toNat_eq none)
    have digits : (exponent.toNat * 2 ^ 52 + fraction.toNat) / hiddenBit =
        exponent.toNat - 1 + 1 := by
      rw [hidden]
      omega
    have rest : (exponent.toNat * 2 ^ 52 + fraction.toNat) % hiddenBit = fraction.toNat := by
      rw [hidden]
      omega
    rw [ofMagnitude_normal false _ digits, rest, if_neg zeroField]
    refine Or.inr ⟨_, _, _, rfl, ?_, ?_, ?_, Or.inl ?_⟩
    · have place : leastExponent + ((exponent.toNat - 1 : Nat) : Int) = exponent.toNat - 1075 := by
        unfold leastExponent
        omega
      rw [toNat_hidden_append, ← place]
      rfl
    · unfold leastExponent
      omega
    · rw [toNat_hidden_append]
      omega
    · rw [toNat_hidden_append]
      omega

/-- What a double without sign unpacks to: zero, or a mantissa and an exponent. -/
theorem StandsFor.unpack (stands : StandsFor x v) :
    v = 0 ∧ unpack Format.binary64 x.toBits.toBitVec = .zero .positive ∨
      ∃ mantissa exponent positive,
        unpack Format.binary64 x.toBits.toBitVec = .finite .positive mantissa exponent positive ∧
          v = mantissa * 2 ^ exponent ∧ leastExponent ≤ exponent ∧ mantissa < 2 ^ 53 ∧
            (2 ^ 52 ≤ mantissa ∨ exponent = leastExponent) := by
  obtain ⟨finite, noSign, rfl⟩ := stands
  obtain ⟨sign, negative, cases⟩ := exists_unpack finite
  cases sign with
  | positive => exact cases
  | negative =>
    rw [negative.mpr rfl] at noSign
    cases noSign

/-! ### Rounded numbers and infinity -/

/-- The number rounded to a whole number of units in its last place. -/
def rounded (v : Rat) : Rat :=
  roundHalfEven (v / 2 ^ lastPlace v) * 2 ^ lastPlace v

theorem rounded_zero : rounded 0 = 0 := by
  have none : roundHalfEven 0 = 0 := roundHalfEven_natCast 0
  rw [rounded, zero_div, none, Nat.cast_zero, zero_mul]

/-- Positive infinity. -/
def infinity : Float :=
  Float.ofBits (UInt64.ofNat infinityBits)

/-- The least number that is rounded to infinity, half a unit above the largest double:
`2 ^ 1024 - 2 ^ 970`. -/
def leastInfinite : Rat :=
  (2 ^ 53 - 1 / 2) * 2 ^ (971 : Int)

theorem leastInfinite_pos : 0 < leastInfinite := by
  unfold leastInfinite
  have factor : (0 : Rat) < 2 ^ 53 - 1 / 2 := by norm_num
  positivity

/-! ### The nearest double -/

theorem toNat_toBits_nearest (v : Rat) :
    (nearest v).toBits.toNat = packedBits (lastPlace v) (roundHalfEven (v / 2 ^ lastPlace v)) := by
  unfold nearest
  dsimp only
  generalize bits : packedBits (lastPlace v) (roundHalfEven (v / 2 ^ lastPlace v)) = packed
  have within : packed ≤ infinityBits := bits ▸ min_le_right _ _
  have value : (UInt64.ofNat packed).toNat = packed :=
    UInt64.toNat_ofNat_of_lt' (within.trans_lt (by decide))
  rw [toBits_ofBits, value]
  rw [value]
  exact (Nat.mod_le _ _).trans within

/-- The nearest double is finite for numbers below the least that is rounded to infinity. -/
theorem packedBits_lt_iff (positive : 0 < v) :
    packedBits (lastPlace v) (roundHalfEven (v / 2 ^ lastPlace v)) < infinityBits ↔
      v < leastInfinite := by
  obtain ⟨-, short, full⟩ := lastPlace_spec positive
  obtain ⟨least, digits, filled⟩ := roundHalfEven_lastPlace_spec positive
  have power : (0 : Rat) < 2 ^ lastPlace v := by positivity
  have nonneg : 0 ≤ v / 2 ^ lastPlace v := by positivity
  have hidden : hiddenBit = 2 ^ 52 := rfl
  have infinity : infinityBits = 2047 * 2 ^ 52 := rfl
  unfold packedBits leastInfinite
  rw [hidden, infinity, min_lt_iff, or_iff_left (lt_irrefl _)]
  rcases lt_trichotomy (lastPlace v) 971 with low | last | high
  · -- Below the last place of the largest doubles there is room for another digit.
    refine iff_of_true (by unfold leastExponent at *; omega) ?_
    rw [div_lt_iff₀ power] at short
    calc v < 2 ^ 53 * 2 ^ lastPlace v := short
      _ ≤ 2 ^ 53 * 2 ^ (970 : Int) := by
        gcongr
        · norm_num
        · omega
      _ = 2 ^ 52 * 2 ^ (971 : Int) := by
        rw [show (971 : Int) = 970 + 1 from rfl, zpow_add₀ (by norm_num)]
        ring
      _ ≤ (2 ^ 53 - 1 / 2) * 2 ^ (971 : Int) := by
        gcongr
        norm_num
  · -- With the last place of the largest doubles, the mantissa may not become a digit longer.
    rw [last] at nonneg ⊢
    have bits : (971 - leastExponent).toNat * 2 ^ 52 + roundHalfEven (v / 2 ^ (971 : Int)) <
        2047 * 2 ^ 52 ↔ roundHalfEven (v / 2 ^ (971 : Int)) < 2 ^ 53 := by
      unfold leastExponent
      omega
    rw [bits, roundHalfEven_lt_iff (by decide) nonneg, div_lt_iff₀ (by positivity)]
    rw [Nat.cast_pow, Nat.cast_ofNat]
  · refine iff_of_false (by unfold leastExponent at *; omega) (not_lt.mpr ?_)
    have above := full (by unfold leastExponent; omega)
    rw [le_div_iff₀ power] at above
    calc (2 ^ 53 - 1 / 2) * 2 ^ (971 : Int) ≤ 2 ^ 53 * (2 : Rat) ^ (971 : Int) := by
          gcongr
          norm_num
      _ = 2 ^ 52 * 2 ^ (972 : Int) := by
        rw [show (972 : Int) = 971 + 1 from rfl, zpow_add₀ (by norm_num)]
        ring
      _ ≤ 2 ^ 52 * 2 ^ lastPlace v := by
        gcongr
        · norm_num
        · omega
      _ ≤ v := above

theorem nearest_eq_infinity (large : leastInfinite ≤ v) : nearest v = infinity := by
  have positive : 0 < v := leastInfinite_pos.trans_le large
  have notBelow := mt (packedBits_lt_iff positive).mp (not_lt.mpr large)
  have bits : packedBits (lastPlace v) (roundHalfEven (v / 2 ^ lastPlace v)) = infinityBits :=
    le_antisymm (min_le_right _ _) (not_lt.mp notBelow)
  unfold nearest
  dsimp only
  rw [bits]
  rfl

/-- A mantissa that is packed at its last place stands for as many units of that place. -/
theorem magnitude_packedBits {place : Int} {mantissa : Nat} (least : leastExponent ≤ place)
    (digits : mantissa ≤ 2 ^ 53) (filled : leastExponent < place → 2 ^ 52 ≤ mantissa)
    (finite : packedBits place mantissa < infinityBits) :
    (ofMagnitude false (packedBits place mantissa)).magnitude = mantissa * 2 ^ place := by
  have hidden : hiddenBit = 2 ^ 52 := rfl
  obtain ⟨step, rfl⟩ := Int.le.dest least
  have steps : (leastExponent + (step : Int) - leastExponent).toNat = step := by omega
  have bits : packedBits (leastExponent + step) mantissa = step * 2 ^ 52 + mantissa := by
    unfold packedBits at finite ⊢
    rw [steps, hidden] at finite ⊢
    omega
  rw [bits]
  rcases lt_or_ge mantissa (2 ^ 52) with short | long
  · -- Only the least place has room for a mantissa without the hidden bit.
    have isLeast : step = 0 := by omega
    subst isLeast
    rw [ofMagnitude_subnormal false (by rw [hidden]; omega)]
    show (((0 * 2 ^ 52 + mantissa) % hiddenBit : Nat) : Rat) * 2 ^ leastExponent = _
    rw [hidden, Nat.zero_mul, Nat.zero_add, Nat.mod_eq_of_lt short]
    rfl
  · rcases Nat.lt_or_eq_of_le digits with within | rfl
    · have mantissaBits : hiddenBit + (step * 2 ^ 52 + mantissa) % hiddenBit = mantissa := by
        rw [hidden]
        omega
      rw [ofMagnitude_normal false step (by rw [hidden]; omega), mantissaBits]
      rfl
    · -- The carry makes the hidden bit of the next place.
      have mantissaBits : hiddenBit + (step * 2 ^ 52 + 2 ^ 53) % hiddenBit = 2 ^ 52 := by
        rw [hidden]
        omega
      have nextPlace : leastExponent + ((step + 1 : Nat) : Int) = leastExponent + step + 1 := by
        push_cast
        ring
      rw [ofMagnitude_normal false (step + 1) (by rw [hidden]; omega), mantissaBits, nextPlace]
      show ((2 ^ 52 : Nat) : Rat) * 2 ^ (leastExponent + (step : Int) + 1) = _
      rw [zpow_add₀ (by norm_num)]
      push_cast
      ring

theorem standsFor_nearest (nonneg : 0 ≤ v) (fits : v < leastInfinite) :
    StandsFor (nearest v) (rounded v) := by
  rcases nonneg.eq_or_lt with rfl | positive
  · rw [rounded_zero]
    refine ⟨by decide +kernel, by decide +kernel, ?_⟩
    have noBits : magnitudeBits (nearest 0) = 0 := by decide +kernel
    rw [noBits, ofMagnitude_subnormal false (by decide)]
    simp [Binary.magnitude]
  · obtain ⟨least, digits, filled⟩ := roundHalfEven_lastPlace_spec positive
    have below := (packedBits_lt_iff positive).mpr fits
    have bits := toNat_toBits_nearest v
    have noSign : (nearest v).toBits.toNat < signBit := by
      rw [bits]
      exact below.trans (by decide)
    have magnitude : magnitudeBits (nearest v) =
        packedBits (lastPlace v) (roundHalfEven (v / 2 ^ lastPlace v)) := by
      rw [magnitudeBits, Nat.mod_eq_of_lt noSign, bits]
    refine ⟨(isFinite_iff _).mpr (magnitude ▸ below), decide_eq_false (not_le.mpr noSign), ?_⟩
    rw [magnitude]
    exact magnitude_packedBits least digits filled below

/-- A number without sign is rounded to a finite double or to infinity. -/
theorem nearest_cases (nonneg : 0 ≤ v) :
    v < leastInfinite ∧ StandsFor (nearest v) (rounded v) ∨
      leastInfinite ≤ v ∧ nearest v = infinity := by
  rcases lt_or_ge v leastInfinite with fits | large
  · exact Or.inl ⟨fits, standsFor_nearest nonneg fits⟩
  · exact Or.inr ⟨large, nearest_eq_infinity large⟩

theorem rounded_nonneg (v : Rat) : 0 ≤ rounded v := by
  unfold rounded
  positivity

/-- Rounding adds at most half a unit in the last of 53 binary digits, or of the least place. -/
theorem rounded_le (nonneg : 0 ≤ v) :
    rounded v ≤ (1 + 2 ^ (-53 : Int)) * v + 2 ^ (-1075 : Int) := by
  rcases nonneg.eq_or_lt with rfl | positive
  · rw [rounded_zero]
    positivity
  · obtain ⟨least, -, full⟩ := lastPlace_spec positive
    have power : (0 : Rat) < 2 ^ lastPlace v := by positivity
    have half : (2 : Rat) ^ lastPlace v / 2 ≤ 2 ^ (-53 : Int) * v + 2 ^ (-1075 : Int) := by
      rcases least.eq_or_lt with isLeast | above
      · have same : (2 : Rat) ^ lastPlace v / 2 = 2 ^ (-1075 : Int) := by
          rw [← isLeast, show leastExponent = -1075 + 1 from rfl, zpow_add₀ (by norm_num)]
          norm_num
        rw [same]
        have size : (0 : Rat) ≤ 2 ^ (-53 : Int) * v := by positivity
        linarith
      · have digits := full above
        rw [le_div_iff₀ power] at digits
        have same : (2 : Rat) ^ lastPlace v / 2 = 2 ^ (-53 : Int) * (2 ^ 52 * 2 ^ lastPlace v) := by
          norm_num
          ring
        have size : (0 : Rat) ≤ 2 ^ (-1075 : Int) := by positivity
        calc (2 : Rat) ^ lastPlace v / 2 = 2 ^ (-53 : Int) * (2 ^ 52 * 2 ^ lastPlace v) := same
          _ ≤ 2 ^ (-53 : Int) * v := by gcongr
          _ ≤ 2 ^ (-53 : Int) * v + 2 ^ (-1075 : Int) := le_add_of_nonneg_right size
    have units : (roundHalfEven (v / 2 ^ lastPlace v) : Rat) ≤ v / 2 ^ lastPlace v + 1 / 2 :=
      roundHalfEven_le_add (by positivity)
    calc rounded v ≤ (v / 2 ^ lastPlace v + 1 / 2) * 2 ^ lastPlace v := by
          unfold rounded
          gcongr
      _ = v + 2 ^ lastPlace v / 2 := by
          field_simp
      _ ≤ (1 + 2 ^ (-53 : Int)) * v + 2 ^ (-1075 : Int) := by linarith

end Binary

end Worksheet
