/-
**Rounding to whole numbers.**

The floor and the ceiling of a double are exact. Rounding to the nearest whole number subtracts the
floor, compares with a half, and may add one, each in rounded arithmetic; nevertheless the result is
exact. The difference is only rounded where it is more than a half, and rounding does not take it
below: a difference of less than a half has few enough digits. A double with a fraction is small
enough for one more than its floor to be exact.

* `denotes_roundAwayFor` and `Denotes.floor`: cutting the fraction off is exact;
* `le_rounded`: rounding does not pass a number that has few digits;
* `hasFewDigits_fract`: when the distance from the floor is exact;
* `Denotes.fraction_beq_zero_iff`: which doubles have no fraction;
* `denotes_roundHalfUp` and `eval_round`: the nearest whole number, with halves going up.
-/

import Mathlib.Data.Rat.Floor
import Worksheet.Number.Whole
import Worksheet.Proofs.Expr.Finite
import Worksheet.Proofs.Number.Sums

namespace Worksheet

namespace Binary

open Float.Model.UnpackedFloat (Sign)

variable {x : Float} {v w : Rat} {sign : Sign}

/-! ### Whole numbers and literals as doubles -/

/-- A whole number with at most 53 binary digits. -/
theorem hasFewDigits_intCast {n : Int} (atMost : |n| ≤ 2 ^ 53) : HasFewDigits n := by
  rw [Int.abs_eq_natAbs] at atMost
  refine ⟨n.natAbs, 0, ?_, by exact_mod_cast atMost, by decide⟩
  rw [zpow_zero, mul_one, Nat.cast_natAbs, Int.cast_abs]

theorem two_pow_lt_leastInfinite : (2 : Rat) ^ 60 < leastInfinite :=
  calc (2 : Rat) ^ 60 < (2 ^ 53 - 1 / 2) * 2 ^ (8 : Int) := by norm_num
    _ ≤ leastInfinite := by
      unfold leastInfinite
      gcongr <;> norm_num

theorem intCast_lt_leastInfinite {n : Int} (atMost : |n| ≤ 2 ^ 53) : |(n : Rat)| < leastInfinite :=
  calc |(n : Rat)| ≤ 2 ^ 53 := by exact_mod_cast atMost
    _ < 2 ^ 60 := by norm_num
    _ < leastInfinite := two_pow_lt_leastInfinite

theorem denotes_nearest_natCast {n : Nat} (atMost : n ≤ 2 ^ 53) : Denotes (nearest n) n := by
  have few : |(n : Int)| ≤ 2 ^ 53 := by
    rw [Nat.abs_cast]
    exact_mod_cast atMost
  have below : (n : Rat) < leastInfinite := (le_abs_self _).trans_lt (intCast_lt_leastInfinite few)
  have exact := roundedSigned_eq_self (hasFewDigits_intCast few)
  rw [Int.cast_natCast, roundedSigned_of_nonneg n.cast_nonneg] at exact
  have denotes := (standsFor_nearest n.cast_nonneg below).denotes
  rwa [exact] at denotes

theorem denotes_signedWhole {negative : Bool} (isSign : negative = true ↔ sign = .negative) {n : Nat}
    (atMost : n ≤ 2 ^ 53) : Denotes (signedWhole negative n) (signed sign n) := by
  have denotes := denotes_nearest_natCast atMost
  unfold signedWhole
  cases sign with
  | negative =>
    rw [if_pos (isSign.mpr rfl)]
    exact denotes.neg
  | positive =>
    rw [if_neg (fun isSet => nomatch isSign.mp isSet)]
    exact denotes

theorem denotes_zeroLiteral : Denotes 0.0 0 :=
  ⟨⟨false, 0, leastExponent⟩, rfl, by norm_num [toRat, magnitude]⟩

theorem denotes_half : Denotes 0.5 (1 / 2) :=
  ⟨⟨false, 2 ^ 52, -53⟩, rfl, by norm_num [toRat, magnitude]⟩

theorem denotes_one : Denotes 1.0 1 :=
  ⟨⟨false, 2 ^ 52, -52⟩, rfl, by norm_num [toRat, magnitude]⟩

/-! ### Cutting the fraction off -/

theorem mantissa_ofMagnitude_lt (negative : Bool) (bits : Nat) :
    (ofMagnitude negative bits).mantissa < 2 ^ 53 := by
  have small : bits % hiddenBit < 2 ^ 52 := Nat.mod_lt _ (by decide)
  have hidden : hiddenBit = 2 ^ 52 := rfl
  unfold ofMagnitude
  dsimp only
  split <;> dsimp only <;> omega

/-- With places after the point, the magnitude is a quotient by the units that make up one. -/
theorem magnitude_eq_div {b : Binary} (places : b.exponent < 0) :
    b.magnitude = b.mantissa / b.unitsInOne := by
  obtain ⟨k, isNeg⟩ : ∃ k : Nat, b.exponent = -k := ⟨(-b.exponent).toNat, by omega⟩
  have units : b.unitsInOne = 2 ^ k := by
    rw [unitsInOne, isNeg, neg_neg, Int.toNat_natCast]
    rfl
  rw [magnitude, isNeg, units, zpow_neg, zpow_natCast, Nat.cast_pow, Nat.cast_ofNat,
    div_eq_mul_inv]

/-- The whole magnitudes next to a double are its floor and its ceiling. -/
theorem wholeMagnitude_eq {b : Binary} (places : b.exponent < 0) (away : Bool) :
    (b.wholeMagnitude away : Int) = if away then ⌈b.magnitude⌉ else ⌊b.magnitude⌋ := by
  have positive : 0 < b.unitsInOne := Nat.two_pow_pos _
  have units : (0 : Rat) < b.unitsInOne := by exact_mod_cast positive
  have division : (b.mantissa : Rat) =
      b.unitsInOne * b.wholePart + (b.mantissa % b.unitsInOne : Nat) := by
    exact_mod_cast (Nat.div_add_mod b.mantissa b.unitsInOne).symm
  have below : ((b.mantissa % b.unitsInOne : Nat) : Rat) < b.unitsInOne := by
    exact_mod_cast Nat.mod_lt _ positive
  have nonneg : (0 : Rat) ≤ (b.mantissa % b.unitsInOne : Nat) := Nat.cast_nonneg _
  have fraction : b.hasFraction = true ↔ 0 < b.mantissa % b.unitsInOne := by
    rw [hasFraction, bne_iff_ne, Nat.pos_iff_ne_zero]
  rw [magnitude_eq_div places, wholeMagnitude]
  cases away with
  | false =>
    rw [Bool.false_and, if_neg Bool.false_ne_true, if_neg Bool.false_ne_true]
    refine (Int.floor_eq_iff.mpr ?_).symm
    rw [le_div_iff₀ units, div_lt_iff₀ units, division]
    push_cast
    constructor <;> linarith
  | true =>
    rw [Bool.true_and, if_pos rfl]
    refine (Int.ceil_eq_iff.mpr ?_).symm
    rw [lt_div_iff₀ units, div_le_iff₀ units, division]
    split
    next isFraction =>
      have some : (0 : Rat) < (b.mantissa % b.unitsInOne : Nat) := by
        exact_mod_cast fraction.mp isFraction
      push_cast at some ⊢
      constructor <;> linarith
    next isWhole =>
      have none : ((b.mantissa % b.unitsInOne : Nat) : Rat) = 0 := by
        exact_mod_cast Nat.eq_zero_of_not_pos (mt fraction.mpr isWhole)
      push_cast at none ⊢
      constructor <;> linarith

/-- Without places after the point, a double is a whole number. -/
theorem exists_intCast_of_exponent {b : Binary} (none : 0 ≤ b.exponent) :
    ∃ n : Int, b.toRat = n := by
  obtain ⟨k, isExponent⟩ := Int.eq_ofNat_of_zero_le none
  have whole : b.magnitude = ((b.mantissa * 2 ^ k : Nat) : Int) := by
    rw [magnitude, isExponent, zpow_natCast]
    push_cast
    rfl
  rw [toRat, whole]
  split
  · exact ⟨-((b.mantissa * 2 ^ k : Nat) : Int), (Int.cast_neg _).symm⟩
  · exact ⟨((b.mantissa * 2 ^ k : Nat) : Int), rfl⟩

/-- **Cutting the fraction off is exact**, in both directions. -/
theorem denotes_roundAwayFor (denotes : Denotes x v) (awayFor : Bool) :
    Denotes (roundAwayFor x awayFor) (if awayFor then ⌊v⌋ else ⌈v⌉ : Int) := by
  obtain ⟨b, decoded, rfl⟩ := denotes
  have short : b.mantissa < 2 ^ 53 := by
    have isBinary := ofFloat?_of_isFinite (Denotes.isFinite ⟨b, decoded, rfl⟩)
    rw [Option.some.inj (decoded.symm.trans isBinary)]
    exact mantissa_ofMagnitude_lt _ _
  unfold roundAwayFor
  rw [decoded]
  dsimp only
  split
  next none =>
    obtain ⟨n, isWhole⟩ := exists_intCast_of_exponent none
    refine ⟨b, decoded, ?_⟩
    rw [isWhole, Int.floor_intCast, Int.ceil_intCast, ite_self]
  next some =>
    have places : b.exponent < 0 := not_le.mp some
    have atMost (away : Bool) : b.wholeMagnitude away ≤ 2 ^ 53 := by
      have part : b.wholePart ≤ b.mantissa := Nat.div_le_self _ _
      unfold wholeMagnitude
      split <;> omega
    have magnitude := wholeMagnitude_eq places (b.negative == awayFor)
    rw [toRat]
    cases isNegative : b.negative with
    | false =>
      have noSign : false = true ↔ Sign.positive = .negative := by simp
      have whole := denotes_signedWhole noSign (atMost (false == awayFor))
      rw [isNegative] at magnitude
      rw [signed, ← Int.cast_natCast, magnitude] at whole
      cases awayFor <;> exact whole
    | true =>
      have hasSign : true = true ↔ Sign.negative = .negative := by simp
      have whole := denotes_signedWhole hasSign (atMost (true == awayFor))
      rw [isNegative] at magnitude
      rw [signed, ← Int.cast_natCast, magnitude, ← Int.cast_neg] at whole
      rw [if_pos rfl, Int.floor_neg, Int.ceil_neg]
      cases awayFor <;> exact whole

/-- The floor of a double is exact. -/
theorem Denotes.floor (denotes : Denotes x v) : Denotes (Worksheet.floor x) ⌊v⌋ :=
  denotes_roundAwayFor denotes true

/-- The ceiling of a double is exact. -/
theorem Denotes.ceiling (denotes : Denotes x v) : Denotes (Worksheet.ceiling x) ⌈v⌉ :=
  denotes_roundAwayFor denotes false

/-! ### The distance from the floor -/

/-- **Rounding does not pass a number that has few digits.** -/
theorem le_rounded (few : HasFewDigits w) (nonneg : 0 ≤ w) (low : w ≤ v) : w ≤ rounded v := by
  obtain ⟨digits, place, value, atMost, least⟩ := few
  rw [abs_of_nonneg nonneg] at value
  rcases nonneg.eq_or_lt with rfl | positive
  · exact rounded_nonneg v
  obtain ⟨-, -, full⟩ := lastPlace_spec (positive.trans_le low)
  have power : (0 : Rat) < 2 ^ lastPlace v := by positivity
  unfold rounded
  rw [← div_le_iff₀ power]
  rcases le_or_gt (lastPlace v) place with coarse | fine
  · -- The number is a whole number of units of the last place.
    obtain ⟨step, rfl⟩ := Int.le.dest coarse
    have units : w / 2 ^ lastPlace v = (digits * 2 ^ step : Nat) := by
      rw [div_eq_iff power.ne', value, zpow_add₀ (by norm_num), zpow_natCast]
      push_cast
      ring
    rw [units, Nat.cast_le]
    apply le_roundHalfEven
    rw [← units]
    gcongr
  · -- The rounded number has a digit more than there is room for at the place.
    have filled := le_roundHalfEven (n := 2 ^ 52) (by exact_mod_cast full (least.trans_lt fine))
    rw [div_le_iff₀ power, value]
    calc (digits : Rat) * 2 ^ place ≤ 2 ^ 53 * 2 ^ place := by
          gcongr
          exact_mod_cast atMost
      _ = 2 ^ 52 * 2 ^ (place + 1) := by
          rw [zpow_add₀ (by norm_num)]
          ring
      _ ≤ roundHalfEven (v / 2 ^ lastPlace v) * 2 ^ lastPlace v := by
          gcongr
          · exact_mod_cast filled
          · norm_num
          · omega

/-- A number that has few digits is a whole number, or has places after the point and is small. -/
theorem HasFewDigits.fract_eq_zero_or (few : HasFewDigits v) :
    Int.fract v = 0 ∨ ∃ (units : Int) (places : Nat), 0 < places ∧ (places : Int) ≤ -leastExponent ∧
      v = units / (2 ^ places : Nat) ∧ |units| ≤ 2 ^ 53 := by
  obtain ⟨digits, place, value, atMost, least⟩ := few
  obtain ⟨sign, isSigned⟩ := exists_signed v
  have isUnits : v = (sign.apply digits : Int) * 2 ^ place := by
    rw [cast_apply_mul, ← value, ← isSigned]
  have small : |(sign.apply digits : Int)| ≤ 2 ^ 53 := by
    cases sign <;> simp only [Sign.apply, abs_neg, Nat.abs_cast] <;> exact_mod_cast atMost
  rcases le_or_gt 0 place with whole | places
  · obtain ⟨k, rfl⟩ := Int.eq_ofNat_of_zero_le whole
    left
    rw [isUnits, zpow_natCast]
    exact_mod_cast Int.fract_intCast (sign.apply digits * 2 ^ k)
  · obtain ⟨k, rfl⟩ : ∃ k : Nat, place = -k := ⟨(-place).toNat, by omega⟩
    refine Or.inr ⟨sign.apply digits, k, by omega, by omega, ?_, small⟩
    rw [isUnits, zpow_neg, zpow_natCast, Nat.cast_pow, Nat.cast_ofNat, div_eq_mul_inv]

theorem hasFewDigits_div {digits places : Nat} (atMost : digits ≤ 2 ^ 53)
    (least : (places : Int) ≤ -leastExponent) :
    HasFewDigits ((digits : Rat) / (2 ^ places : Nat)) := by
  refine ⟨digits, -places, ?_, atMost, by omega⟩
  rw [abs_of_nonneg (by positivity), zpow_neg, zpow_natCast, Nat.cast_pow, Nat.cast_ofNat,
    div_eq_mul_inv]

theorem abs_fract_lt (v : Rat) : |Int.fract v| < leastInfinite := by
  have one := intCast_lt_leastInfinite (n := 1) (by decide)
  rw [Int.cast_one, abs_one] at one
  rw [abs_of_nonneg (Int.fract_nonneg v)]
  exact (Int.fract_lt_one v).trans one

/-- The distance of a quotient from its floor is the quotient of the remainder. -/
theorem exists_fract_div (units : Int) (places : Nat) :
    ∃ rest : Nat, units % (2 ^ places : Nat) = rest ∧
      Int.fract ((units : Rat) / (2 ^ places : Nat)) = rest / (2 ^ places : Nat) := by
  obtain ⟨rest, isRest⟩ : ∃ rest : Nat, units % (2 ^ places : Nat) = rest :=
    ⟨_, (Int.toNat_of_nonneg (Int.emod_nonneg _ (by positivity))).symm⟩
  refine ⟨rest, isRest, ?_⟩
  rw [Int.fract_div_intCast_eq_div_intCast_mod, isRest, Int.cast_natCast]

/-- The distance from the floor is exact for numbers without sign. -/
theorem hasFewDigits_fract_of_nonneg (few : HasFewDigits v) (nonneg : 0 ≤ v) :
    HasFewDigits (Int.fract v) := by
  rcases few.fract_eq_zero_or with whole | ⟨units, places, -, least, isUnits, small⟩
  · rw [whole]
    exact hasFewDigits_intCast (n := 0) (by decide)
  · have power : (0 : Rat) < (2 ^ places : Nat) := by positivity
    obtain ⟨rest, isRest, distance⟩ := exists_fract_div units places
    rw [isUnits, le_div_iff₀ power, zero_mul] at nonneg
    obtain ⟨digits, rfl⟩ := Int.eq_ofNat_of_zero_le (by exact_mod_cast nonneg)
    rw [Nat.abs_cast] at small
    have isMod : digits % 2 ^ places = rest := by exact_mod_cast isRest
    have atMost : rest ≤ digits := isMod ▸ Nat.mod_le _ _
    rw [isUnits, distance]
    exact hasFewDigits_div (atMost.trans (by exact_mod_cast small)) least

/-- The distance from the floor is exact where it is less than a half. -/
theorem hasFewDigits_fract (few : HasFewDigits v) (less : Int.fract v < 1 / 2) :
    HasFewDigits (Int.fract v) := by
  rcases few.fract_eq_zero_or with whole | ⟨units, places, -, least, isUnits, small⟩
  · rw [whole]
    exact hasFewDigits_intCast (n := 0) (by decide)
  · rcases lt_or_ge |v| (1 / 2) with near | far
    · obtain ⟨low, high⟩ := abs_lt.mp near
      rcases le_or_gt 0 v with nonneg | negative
      · exact hasFewDigits_fract_of_nonneg few nonneg
      · -- Just below zero, the distance from `-1` is more than a half.
        have floor : ⌊v⌋ = -1 := by
          rw [Int.floor_eq_iff]
          push_cast
          constructor <;> linarith
        rw [Int.fract, floor] at less
        push_cast at less
        linarith
    · -- The remainder has fewer places in front of it than the number has digits.
      have power : (0 : Rat) < (2 ^ places : Nat) := by positivity
      obtain ⟨rest, -, distance⟩ := exists_fract_div units places
      rw [← isUnits] at distance
      rw [distance] at less ⊢
      have room : ((2 ^ places : Nat) : Rat) ≤ 2 ^ 54 := by
        have size : |(units : Rat)| ≤ 2 ^ 53 := by exact_mod_cast small
        rw [isUnits, abs_div, abs_of_pos power, le_div_iff₀ power] at far
        linarith
      rw [div_lt_iff₀ power] at less
      have short : (rest : Rat) ≤ 2 ^ 53 := by linarith
      exact hasFewDigits_div (by exact_mod_cast short) least

/-- The number after the floor is exact for a number with a fraction. -/
theorem abs_floor_add_one_le (few : HasFewDigits v) (fraction : Int.fract v ≠ 0) :
    |⌊v⌋ + 1| ≤ 2 ^ 53 := by
  obtain ⟨units, places, positive, -, isUnits, small⟩ := few.fract_eq_zero_or.resolve_left fraction
  have power : (0 : Rat) < (2 ^ places : Nat) := by positivity
  have two : (2 : Rat) ≤ (2 ^ places : Nat) := by
    exact_mod_cast Nat.le_self_pow positive.ne' 2
  have size : |v| ≤ 2 ^ 52 := by
    have most : |(units : Rat)| ≤ 2 ^ 53 := by exact_mod_cast small
    rw [isUnits, abs_div, abs_of_pos power, div_le_iff₀ power]
    linarith
  obtain ⟨low, high⟩ := abs_le.mp size
  have below : (-2 ^ 52 : Int) ≤ ⌊v⌋ := by
    rw [Int.le_floor]
    exact_mod_cast low
  have above : ⌊v⌋ ≤ 2 ^ 52 := by
    exact_mod_cast (Int.floor_le v).trans high
  rw [abs_le]
  constructor <;> omega

/-! ### The fraction -/

/-- **The fraction of a double is zero exactly for whole numbers.** -/
theorem Denotes.fraction_beq_zero_iff (denotes : Denotes x v) :
    (fraction x == 0.0) = true ↔ Int.fract v = 0 := by
  obtain ⟨sign, isSign, -⟩ := denotes.unpack_cases
  have value := ((denotes_iff isSign).mp denotes).2
  have nonneg := magnitude_nonneg (ofMagnitude false (magnitudeBits x))
  have few := denotes.hasFewDigits
  unfold fraction truncate
  cases sign with
  | positive =>
    rw [signed] at value
    have exact := roundedSigned_eq_self (hasFewDigits_fract_of_nonneg few (value ▸ nonneg))
    have difference := denotes.sub denotes.floor (abs_fract_lt v)
    rw [← Int.fract, exact] at difference
    rw [if_neg (by simp [isSign])]
    exact difference.beq_iff denotes_zeroLiteral
  | negative =>
    -- Towards zero from below is the floor of the magnitude.
    have turned : v - ⌈v⌉ = -Int.fract (-v) := by
      rw [Int.fract, Int.floor_neg, Int.cast_neg]
      ring
    have exact := hasFewDigits_fract_of_nonneg few.neg (by rw [← value, signed, neg_neg]; exact nonneg)
    have fits : |v - ⌈v⌉| < leastInfinite := by
      rw [turned, abs_neg]
      exact abs_fract_lt (-v)
    have difference := denotes.sub denotes.ceiling fits
    rw [turned, roundedSigned_eq_self exact.neg] at difference
    rw [if_pos (isSign.mpr rfl), difference.beq_iff denotes_zeroLiteral, neg_eq_zero, Int.fract_neg_eq_zero]

/-! ### The nearest whole number -/

/-- The floor of a number that is moved up by a half. -/
theorem floor_add_half (v : Rat) :
    ⌊v + 1 / 2⌋ = if 1 / 2 ≤ Int.fract v then ⌊v⌋ + 1 else ⌊v⌋ := by
  have parts := Int.floor_add_fract v
  have below := Int.fract_lt_one v
  have nonneg := Int.fract_nonneg v
  rw [Int.floor_eq_iff]
  split <;> push_cast <;> constructor <;> linarith

/-- The rounded distance from the floor is compared with a half as the distance itself is. -/
theorem half_le_rounded_fract_iff (few : HasFewDigits v) :
    1 / 2 ≤ rounded (Int.fract v) ↔ 1 / 2 ≤ Int.fract v := by
  refine ⟨fun half => ?_, le_rounded denotes_half.hasFewDigits (by norm_num)⟩
  by_contra less
  have exact := roundedSigned_eq_self (hasFewDigits_fract few (not_le.mp less))
  rw [roundedSigned_of_nonneg (Int.fract_nonneg v)] at exact
  exact less (exact ▸ half)

/-- **Rounding a double to the nearest whole number is exact**, although its steps are rounded. -/
theorem denotes_roundHalfUp (denotes : Denotes x v) : Denotes (roundHalfUp x) ⌊v + 1 / 2⌋ := by
  have few := denotes.hasFewDigits
  have below := denotes.floor
  have distance : Denotes (x - Worksheet.floor x) (rounded (Int.fract v)) := by
    rw [← roundedSigned_of_nonneg (Int.fract_nonneg v)]
    exact denotes.sub below (abs_fract_lt v)
  have compared : 0.5 ≤ x - Worksheet.floor x ↔ 1 / 2 ≤ Int.fract v :=
    (denotes_half.le_iff distance).trans (half_le_rounded_fract_iff few)
  unfold roundHalfUp
  dsimp only
  rw [floor_add_half]
  simp only [compared]
  split
  next half =>
    have small := abs_floor_add_one_le few (by linarith)
    have sum := below.add denotes_one (by exact_mod_cast intCast_lt_leastInfinite small)
    have exact := roundedSigned_eq_self (hasFewDigits_intCast small)
    rw [Int.cast_add, Int.cast_one] at exact ⊢
    rwa [exact] at sum
  next less => exact below

end Binary

namespace Expr

/-- **Calling `round` on a finite double is exact**: it has a value, the largest whole number that is
not more than a half above the number that the double denotes. -/
theorem eval_round {x : Float} (finite : x.isFinite = true) :
    ∃ v, Binary.Denotes x v ∧ ∃ y, Binary.Denotes y ⌊v + 1 / 2⌋ ∧
      ∀ operand : Expr, operand.eval = .ok x →
        (Expr.call "round".toList [operand]).eval = .ok y := by
  obtain ⟨v, denotes⟩ := Binary.exists_denotes finite
  have rounds := Binary.denotes_roundHalfUp denotes
  refine ⟨v, denotes, roundHalfUp x, rounds, fun operand isValue => ?_⟩
  have listed : Function.ofName? "round".toList = some .round := by decide
  have called : Function.round.call [x] = .ok (roundHalfUp x) :=
    (Function.round.call_eq_ok_iff [x] _).mpr ⟨rfl, rounds.isFinite⟩
  have inputs : evalAll [operand] = .ok [x] :=
    (evalAll_cons_eq_ok_iff _ _ _).mpr ⟨x, isValue, [], rfl, rfl⟩
  exact (eval_call_eq_ok_iff _ _ _).mpr ⟨.round, listed, [x], inputs, called⟩

/-- The largest double below a half is rounded down. -/
theorem eval_round_below_half :
    (0.49999999999999994 : Float).isFinite = true ∧ ∃ y, Binary.Denotes y 0 ∧
      (Expr.call "round".toList [.number 0.49999999999999994]).eval = .ok y := by
  have finite : (0.49999999999999994 : Float).isFinite = true := rfl
  have below : Binary.Denotes 0.49999999999999994 (9007199254740991 * 2 ^ (-54 : Int)) :=
    ⟨⟨false, 9007199254740991, -54⟩, rfl, rfl⟩
  obtain ⟨v, denotes, y, rounds, evaluates⟩ := eval_round finite
  refine ⟨finite, y, ?_, evaluates _ ?_⟩
  · have floor : ⌊v + 1 / 2⌋ = 0 := by
      rw [denotes.unique below, Int.floor_eq_iff]
      norm_num
    rwa [floor, Int.cast_zero] at rounds
  · rw [eval, requireFinite, if_pos finite]

end Expr

end Worksheet
