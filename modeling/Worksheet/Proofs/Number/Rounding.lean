/-
**Rounding the results of operations.**

The model of a double computes a product or a quotient as a mantissa with an exponent and a note of
what is left behind the mantissa: nothing, less than half a unit, half a unit, or more. It shifts
digits out until the exponent is that of the last place, keeping the note up to date, and rounds.
What results is the double nearest to the exact number.

* `Describes` says what a mantissa and its note stand for;
* `describes_shiftRightOne` is one step of shifting, and `roundToNearestEven_eq` is the rounding;
* `toNat_pack_roundWithAccuracy`: the bits of a rounded result are those of the nearest double.
-/

import Worksheet.Proofs.Number.Bits
import Worksheet.Proofs.Number.Nearest

namespace Worksheet

/-! ### Rounding to whole numbers -/

theorem floor_toNat_eq {y : Rat} {n : Nat} (low : (n : Rat) ≤ y) (high : y < n + 1) :
    y.floor.toNat = n := by
  have floor : ⌊y⌋ = (n : Int) :=
    Int.floor_eq_iff.mpr ⟨by exact_mod_cast low, by exact_mod_cast high⟩
  show ⌊y⌋.toNat = n
  rw [floor, Int.toNat_natCast]

/-- The nearest whole number is one of the two neighbours. -/
theorem roundHalfEven_cases {y : Rat} (nonneg : 0 ≤ y) :
    ∃ below : Nat, below ≤ y ∧ y < below + 1 ∧
      (y < below + 1 / 2 ∧ roundHalfEven y = below ∨
        y = below + 1 / 2 ∧ roundHalfEven y = below + below % 2 ∨
        below + 1 / 2 < y ∧ roundHalfEven y = below + 1) := by
  obtain ⟨below, isFloor⟩ : ∃ below : Nat, ⌊y⌋ = below :=
    ⟨⌊y⌋.toNat, (Int.toNat_of_nonneg (Int.floor_nonneg.mpr nonneg)).symm⟩
  have low : (below : Rat) ≤ y := by exact_mod_cast (Int.floor_eq_iff.mp isFloor).1
  have high : y < below + 1 := by exact_mod_cast (Int.floor_eq_iff.mp isFloor).2
  refine ⟨below, low, high, ?_⟩
  unfold roundHalfEven
  dsimp only
  rw [floor_toNat_eq low high]
  rcases lt_trichotomy (y - below) (1 / 2) with less | tie | more
  · rw [if_pos less]
    exact Or.inl ⟨by linarith, rfl⟩
  · rw [if_neg tie.not_lt, if_neg tie.symm.not_lt]
    exact Or.inr (Or.inl ⟨by linarith, rfl⟩)
  · rw [if_neg more.not_gt, if_pos more]
    exact Or.inr (Or.inr ⟨by linarith, rfl⟩)

/-- Rounding passes no whole number upwards. -/
theorem roundHalfEven_le {y : Rat} {n : Nat} (nonneg : 0 ≤ y) (high : y ≤ n) :
    roundHalfEven y ≤ n := by
  obtain ⟨below, low, -, rounded⟩ := roundHalfEven_cases nonneg
  have notAbove : below ≤ n := by exact_mod_cast low.trans high
  rcases rounded with ⟨_, isBelow⟩ | ⟨tie, isEven⟩ | ⟨more, isAbove⟩
  · rwa [isBelow]
  all_goals
    have notAt : below < n := by
      refine lt_of_le_of_ne notAbove ?_
      rintro rfl
      linarith
    omega

/-- Rounding passes no whole number downwards. -/
theorem le_roundHalfEven {y : Rat} {n : Nat} (low : n ≤ y) : n ≤ roundHalfEven y := by
  obtain ⟨below, -, high, rounded⟩ := roundHalfEven_cases (n.cast_nonneg.trans low)
  have notBelow : n < below + 1 := by exact_mod_cast low.trans_lt high
  rcases rounded with ⟨_, isBelow⟩ | ⟨_, isEven⟩ | ⟨_, isAbove⟩ <;> omega

/-- What is rounded stays below an even number if it is more than half a unit below it. -/
theorem roundHalfEven_lt_iff {y : Rat} {n : Nat} (even : n % 2 = 0) (nonneg : 0 ≤ y) :
    roundHalfEven y < n ↔ y < n - 1 / 2 := by
  obtain ⟨below, low, high, isLess | isTie | isMore⟩ := roundHalfEven_cases nonneg
  · obtain ⟨less, same⟩ := isLess
    rw [same]
    constructor
    · intro before
      have next : (below : Rat) + 1 ≤ n := by exact_mod_cast before
      linarith
    · intro before
      have next : (below : Rat) < n := by linarith
      exact_mod_cast next
  · obtain ⟨tie, same⟩ := isTie
    rw [same]
    constructor
    · intro before
      have next : (below : Rat) + 1 < n := by exact_mod_cast (show below + 1 < n by omega)
      linarith
    · intro before
      have next : (below : Rat) + 1 < n := by linarith
      have next : below + 1 < n := by exact_mod_cast next
      omega
  · obtain ⟨more, same⟩ := isMore
    rw [same]
    constructor
    · intro before
      have next : (below : Rat) + 1 + 1 ≤ n := by exact_mod_cast before
      linarith
    · intro before
      have next : (below : Rat) + 1 < n := by linarith
      exact_mod_cast next

/-- Rounding adds at most a half. -/
theorem roundHalfEven_le_add {y : Rat} (nonneg : 0 ≤ y) :
    (roundHalfEven y : Rat) ≤ y + 1 / 2 := by
  obtain ⟨below, low, high, ⟨_, same⟩ | ⟨tie, same⟩ | ⟨more, same⟩⟩ := roundHalfEven_cases nonneg
  · rw [same]
    linarith
  · have parity : ((below % 2 : Nat) : Rat) ≤ 1 := by
      exact_mod_cast Nat.le_of_lt_succ (Nat.mod_lt below two_pos)
    rw [same]
    push_cast at parity ⊢
    linarith
  · rw [same]
    push_cast
    linarith

namespace Binary

open Float.Model (Format UnpackedFloat totalExponent)
open Float.Model.UnpackedFloat

/-! ### What a mantissa and its note stand for -/

/-- The number is the mantissa and what the note says is left of a unit. -/
def Describes (note : Accuracy) (mantissa : Nat) (y : Rat) : Prop :=
  match note with
  | .exact => y = mantissa
  | .inexact .lt => mantissa < y ∧ y < mantissa + 1 / 2
  | .inexact .eq => y = mantissa + 1 / 2
  | .inexact .gt => mantissa + 1 / 2 < y ∧ y < mantissa + 1

variable {note : Accuracy} {mantissa : Nat} {y : Rat}

theorem Describes.between (describes : Describes note mantissa y) :
    mantissa ≤ y ∧ y < mantissa + 1 := by
  unfold Describes at describes
  split at describes <;> constructor <;> linarith

/-- The model rounds to the nearest whole number. -/
theorem roundToNearestEven_eq (describes : Describes note mantissa y) :
    note.roundToNearestEven mantissa = roundHalfEven y := by
  have between := describes.between
  unfold roundHalfEven
  dsimp only
  rw [floor_toNat_eq between.1 between.2]
  unfold Describes at describes
  split at describes
  · rw [if_pos (by linarith)]
    rfl
  · rw [if_pos (by linarith)]
    rfl
  · rw [if_neg (by linarith), if_neg (by linarith)]
    rfl
  · rw [if_neg (by linarith), if_pos (by linarith)]
    rfl

/-- A digit that is shifted out goes into the note. -/
theorem describes_shiftRightOne {extended : ExtendedMantissa}
    (describes : Describes extended.accuracy extended.mantissa y) :
    Describes extended.shiftRightOne.accuracy extended.shiftRightOne.mantissa (y / 2) := by
  obtain ⟨mantissa, roundBit, stickyBit⟩ := extended
  have division : ((mantissa % 2 : Nat) : Rat) + 2 * ((mantissa / 2 : Nat) : Rat) = mantissa := by
    exact_mod_cast Nat.mod_add_div mantissa 2
  -- The new digit is the last one of the mantissa, and the old note says whether more is left.
  rcases Nat.mod_two_eq_zero_or_one mantissa with digit | digit <;>
    rw [digit] at division <;> push_cast at division <;>
    cases roundBit <;> cases stickyBit <;>
    simp only [ExtendedMantissa.shiftRightOne, digit] <;>
    simp only [Describes, ExtendedMantissa.accuracy, bne_self_eq_false, Bool.or_true, Bool.or_false,
      show (1 != 0) = true from rfl] at describes ⊢ <;>
    first | linarith | exact ⟨by linarith, by linarith⟩

/-- Digits that are shifted out go into the note. -/
theorem describes_shiftRight {extended : ExtendedMantissa}
    (describes : Describes extended.accuracy extended.mantissa y) (places : Nat) :
    Describes (extended >>> places).accuracy (extended >>> places).mantissa
      (y / 2 ^ places) := by
  show Describes (places.repeat ExtendedMantissa.shiftRightOne extended).accuracy
    (places.repeat ExtendedMantissa.shiftRightOne extended).mantissa (y / 2 ^ places)
  induction places with
  | zero => simpa [Nat.repeat] using describes
  | succ places ih =>
    rw [pow_succ, ← div_div]
    exact describes_shiftRightOne ih

/-- Before any shift the note is the given one. -/
theorem describes_ofMantissaAndAccuracy (describes : Describes note mantissa y) :
    Describes (ExtendedMantissa.ofMantissaAndAccuracy mantissa note).accuracy
      (ExtendedMantissa.ofMantissaAndAccuracy mantissa note).mantissa y := by
  rcases note with _ | (_ | _ | _) <;> exact describes

/-! ### The last place -/

/-- A positive number is less than 53 binary digits above its last place, and has as many digits
unless the last place is the least. -/
theorem lastPlace_spec {x : Rat} (positive : 0 < x) :
    leastExponent ≤ lastPlace x ∧ x / 2 ^ lastPlace x < 2 ^ 53 ∧
      (leastExponent < lastPlace x → 2 ^ 52 ≤ x / 2 ^ lastPlace x) := by
  obtain ⟨low, high⟩ := binaryOrder_spec positive
  have power : (0 : Rat) < 2 ^ lastPlace x := by positivity
  have isMax : lastPlace x = max (binaryOrder x - 52) leastExponent := by
    rw [lastPlace, if_neg (not_le.mpr positive)]
  refine ⟨by omega, ?_, fun above => ?_⟩
  · rw [div_lt_iff₀ power]
    calc x < 2 ^ (binaryOrder x + 1) := high
      _ ≤ 2 ^ (53 + lastPlace x) := by
        apply zpow_le_zpow_right₀ (by norm_num)
        omega
      _ = 2 ^ 53 * 2 ^ lastPlace x := by
        rw [zpow_add₀ (by norm_num)]
        rfl
  · rw [le_div_iff₀ power]
    calc (2 : Rat) ^ 52 * 2 ^ lastPlace x = 2 ^ (52 + lastPlace x) := by
          rw [zpow_add₀ (by norm_num)]
          rfl
      _ = 2 ^ binaryOrder x := by
        congr 1
        omega
      _ ≤ x := low

/-- Rounded to units of its last place, a positive number keeps to 53 binary digits, with one unit
more at most. -/
theorem roundHalfEven_lastPlace_spec {x : Rat} (positive : 0 < x) :
    leastExponent ≤ lastPlace x ∧ roundHalfEven (x / 2 ^ lastPlace x) ≤ 2 ^ 53 ∧
      (leastExponent < lastPlace x → 2 ^ 52 ≤ roundHalfEven (x / 2 ^ lastPlace x)) := by
  obtain ⟨least, short, full⟩ := lastPlace_spec positive
  refine ⟨least, ?_, fun above => ?_⟩
  · exact roundHalfEven_le (by positivity) (by exact_mod_cast short.le)
  · exact le_roundHalfEven (by exact_mod_cast full above)

theorem targetExponent_totalExponent (mantissa : Nat) (exponent : Int) :
    Format.binary64.targetExponent (totalExponent mantissa exponent) =
      max ((mantissa.log2 : Int) + exponent - 52) leastExponent := by
  unfold Format.targetExponent totalExponent Format.mantissaBits Format.minExponent leastExponent
  show max ((mantissa.log2 : Int) + 1 + exponent - (1 + 52 : Nat)) (3 - 2 ^ (11 - 1) - (1 + 52)) = _
  norm_num
  omega

/-- The exponent to which the model shifts is that of the last place. -/
theorem targetExponent_eq {x : Rat} {exponent : Int} (positive : 0 < x)
    (describes : Describes note mantissa (x / 2 ^ exponent))
    (room : exponent ≤ Format.binary64.targetExponent (totalExponent mantissa exponent)) :
    Format.binary64.targetExponent (totalExponent mantissa exponent) = lastPlace x := by
  obtain ⟨low, high⟩ := describes.between
  have power : (0 : Rat) < 2 ^ exponent := by positivity
  rw [le_div_iff₀ power] at low
  rw [div_lt_iff₀ power] at high
  rw [targetExponent_totalExponent] at room ⊢
  rw [lastPlace, if_neg (not_le.mpr positive)]
  by_cases zero : mantissa = 0
  · -- All digits are behind the mantissa, and the last place is the least.
    subst zero
    have small : x < 2 ^ exponent := by simpa using high
    have order := (zpow_lt_zpow_iff_right₀ (by norm_num)).mp
      ((binaryOrder_spec positive).1.trans_lt small)
    have digits : Nat.log2 0 = 0 := by decide
    rw [digits] at room ⊢
    omega
  · have order : binaryOrder x = (mantissa.log2 : Int) + exponent := by
      apply binaryOrder_eq
      · calc (2 : Rat) ^ ((mantissa.log2 : Int) + exponent)
            = 2 ^ mantissa.log2 * 2 ^ exponent := by rw [zpow_add₀ (by norm_num), zpow_natCast]
          _ ≤ mantissa * 2 ^ exponent := by
            gcongr
            exact_mod_cast Nat.log2_self_le zero
          _ ≤ x := low
      · calc x < (mantissa + 1) * 2 ^ exponent := high
          _ ≤ 2 ^ (mantissa.log2 + 1) * 2 ^ exponent := by
            gcongr
            exact_mod_cast Nat.lt_log2_self (n := mantissa)
          _ = 2 ^ ((mantissa.log2 : Int) + exponent + 1) := by
            rw [add_right_comm, zpow_add₀ (by norm_num), ← zpow_natCast]
            rfl
    rw [order]

/-- Shifting to the exponent of the last place leaves the number in its units. -/
theorem describes_shiftToTargetExponent {x : Rat} {exponent : Int} (positive : 0 < x)
    (describes : Describes note mantissa (x / 2 ^ exponent))
    (room : exponent ≤ Format.binary64.targetExponent (totalExponent mantissa exponent)) :
    ∃ extended, shiftToTargetExponent Format.binary64 mantissa exponent note =
        (extended, lastPlace x) ∧
      extended.roundedMantissa = roundHalfEven (x / 2 ^ lastPlace x) := by
  have target := targetExponent_eq positive describes room
  rw [target] at room
  obtain ⟨places, shift⟩ := Int.le.dest room
  have steps : (lastPlace x - exponent).toNat = places := by omega
  refine ⟨ExtendedMantissa.ofMantissaAndAccuracy mantissa note >>> places, ?_, ?_⟩
  · unfold shiftToTargetExponent shiftToExponent
    rw [target]
    dsimp only
    rw [steps, shift]
  · have shifted := describes_shiftRight (describes_ofMantissaAndAccuracy describes) places
    have units : x / 2 ^ exponent / 2 ^ places = x / 2 ^ lastPlace x := by
      rw [div_div, ← shift, zpow_add₀ (by norm_num), zpow_natCast]
    rw [units] at shifted
    exact roundToNearestEven_eq shifted

/-! ### Packing -/

/-- A mantissa that is exact in front of its last place stays, and one that rounding made too long
goes up by one place. -/
theorem shiftToTargetExponent_exact {place : Int} (least : leastExponent ≤ place)
    (digits : mantissa ≤ 2 ^ 53) :
    ∃ extended later, shiftToTargetExponent Format.binary64 mantissa place .exact =
        (extended, later) ∧
      (mantissa < 2 ^ 53 ∧ extended.mantissa = mantissa ∧ later = place ∨
        mantissa = 2 ^ 53 ∧ extended.mantissa = 2 ^ 52 ∧ later = place + 1) := by
  unfold shiftToTargetExponent shiftToExponent
  rw [targetExponent_totalExponent]
  dsimp only
  refine ⟨_, _, rfl, ?_⟩
  rcases Nat.lt_or_eq_of_le digits with short | rfl
  · have log : mantissa.log2 < 53 := by
      rcases Nat.eq_zero_or_pos mantissa with rfl | positive
      · decide
      · exact (Nat.log2_lt positive.ne').mpr short
    have steps : (max ((mantissa.log2 : Int) + place - 52) leastExponent - place).toNat = 0 := by
      omega
    rw [steps]
    exact Or.inl ⟨short, rfl, add_zero place⟩
  · have log : Nat.log2 (2 ^ 53) = 53 := by decide +kernel
    have steps :
        (max (((2 ^ 53 : Nat).log2 : Int) + place - 52) leastExponent - place).toNat = 1 := by
      rw [log]
      omega
    rw [steps]
    exact Or.inr ⟨rfl, rfl, rfl⟩

/-- A mantissa that is one digit too long has the bits of its half at the next place. -/
theorem packedBits_carry {place : Int} (least : leastExponent ≤ place) :
    packedBits (place + 1) (2 ^ 52) = packedBits place (2 ^ 53) := by
  have hidden : hiddenBit = 2 ^ 52 := rfl
  have steps : (place + 1 - leastExponent).toNat = (place - leastExponent).toNat + 1 := by omega
  have together : ((place - leastExponent).toNat + 1) * 2 ^ 52 + 2 ^ 52 =
      (place - leastExponent).toNat * 2 ^ 52 + 2 ^ 53 := by omega
  unfold packedBits
  rw [steps, hidden, together]

/-- The bits of a sign and a mantissa at its last place. -/
theorem toNat_pack_finite (sign : Sign) {place : Int} (positive : 0 < mantissa)
    (least : leastExponent ≤ place) (short : mantissa < 2 ^ 53)
    (full : leastExponent < place → 2 ^ 52 ≤ mantissa) :
    (pack Format.binary64 (.finite sign mantissa place positive)).toNat =
      sign.toBitVec.toNat * 2 ^ 63 + packedBits place mantissa := by
  have field : (place + Format.binary64.exponentBias +
      Format.binary64.mantissaBitsWithoutImplicit).toNat = (place - leastExponent).toNat + 1 := by
    show (place + ((2 ^ (11 - 1) - 1 : Nat) : Int) + ((52 : Nat) : Int)).toNat = _
    unfold leastExponent at *
    omega
  have hidden : hiddenBit = 2 ^ 52 := rfl
  have infinity : infinityBits = 2047 * 2 ^ 52 := rfl
  unfold pack packedBits
  dsimp only
  rw [field, hidden, infinity]
  generalize steps : (place - leastExponent).toNat = step
  show (if 2 ^ 11 ≤ step + 1 + 1 then packedInfinity Format.binary64 sign
    else if mantissa.log2 + 1 = 53 then
      fields sign (BitVec.ofNat 11 (step + 1)) (BitVec.ofNat 52 mantissa)
    else fields sign 0#11 (BitVec.ofNat 52 mantissa)).toNat = _
  split
  · -- The exponent is out of reach, and so is a full mantissa.
    have shape : (packedInfinity Format.binary64 sign).toNat =
        (sign.toBitVec.toNat * 2 ^ 11 + 2047) * 2 ^ 52 + 0 := toNat_fields sign (-1#11) 0#52
    have filled : 2 ^ 52 ≤ mantissa := full (by omega)
    rw [shape, min_eq_right (by omega)]
    omega
  · split
    · rename_i digits
      have filled : 2 ^ 52 ≤ mantissa := (Nat.le_log2 positive.ne').mp (by omega)
      rw [toNat_fields, BitVec.toNat_ofNat, BitVec.toNat_ofNat, min_eq_left (by omega)]
      omega
    · rename_i digits
      have notFilled : mantissa < 2 ^ 52 := by
        have atMost : mantissa.log2 < 53 := (Nat.log2_lt positive.ne').mpr short
        exact (Nat.log2_lt positive.ne').mp (by omega)
      rw [toNat_fields, BitVec.toNat_ofNat, BitVec.toNat_ofNat, min_eq_left (by omega)]
      omega

/-- **The model rounds the result of an operation to the nearest double**: the bits behind the sign
are those of the nearest double. -/
theorem toNat_pack_roundWithAccuracy (sign : Sign) {x : Rat} {exponent : Int} (positive : 0 < x)
    (describes : Describes note mantissa (x / 2 ^ exponent))
    (room : exponent ≤ Format.binary64.targetExponent (totalExponent mantissa exponent)) :
    (pack Format.binary64 (roundWithAccuracy Format.binary64 sign mantissa exponent note)).toNat =
      sign.toBitVec.toNat * 2 ^ 63 +
        packedBits (lastPlace x) (roundHalfEven (x / 2 ^ lastPlace x)) := by
  obtain ⟨least, digits, filled⟩ := roundHalfEven_lastPlace_spec positive
  obtain ⟨extended, shifted, rounded⟩ := describes_shiftToTargetExponent positive describes room
  generalize roundHalfEven (x / 2 ^ lastPlace x) = units at digits filled rounded ⊢
  generalize lastPlace x = place at least filled shifted ⊢
  obtain ⟨final, later, again, cases⟩ := shiftToTargetExponent_exact least digits
  unfold roundWithAccuracy
  rw [shifted]
  dsimp only
  rw [rounded, again]
  dsimp only
  rcases cases with ⟨fits, same, stays⟩ | ⟨carry, half, next⟩
  · split
    · rename_i none
      -- Nothing is left, which only the least place allows.
      rw [same] at none
      have isLeast : place = leastExponent := by omega
      have noBits : packedBits leastExponent 0 = 0 := by decide
      rw [none, isLeast, noBits]
      show (fields sign 0#11 0#52).toNat = _
      rw [toNat_fields, BitVec.toNat_ofNat, BitVec.toNat_ofNat]
      omega
    · rename_i some
      simp only [same, stays] at some ⊢
      exact toNat_pack_finite sign (Nat.pos_of_ne_zero some) least fits filled
  · rw [dif_neg (by omega)]
    simp only [half, next]
    rw [toNat_pack_finite sign (Nat.two_pow_pos 52) (by omega)
      (Nat.pow_lt_pow_right (by decide) (by decide)) (fun _ => le_rfl), packedBits_carry least,
      carry]

end Binary

end Worksheet
