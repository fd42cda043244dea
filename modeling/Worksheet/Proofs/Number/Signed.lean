/-
**The numbers that doubles with a sign stand for.**

Every finite double stands for a number, zeros of both signs for zero. Rounding does not look at the
sign, so a result with a sign is rounded as its magnitude is; a number with few enough binary digits
is not changed by rounding at all.

* `Denotes` says what a finite double stands for, and `Denotes.unpack_cases` what it unpacks to;
* `roundedSigned` is a number of any sign rounded to its last place;
* `denotes_roundWithAccuracy`: the model rounds a result of any sign to the nearest double;
* `HasFewDigits` says that a number has at most 53 binary digits, and `roundedSigned_eq_self` that
  rounding leaves it as it is;
* `Denotes.le_iff`: doubles compare as the numbers do that they stand for.
-/

import Worksheet.Proofs.Number.StandsFor

namespace Worksheet

namespace Binary

open Float.Model (Format UnpackedFloat totalExponent)
open Float.Model.UnpackedFloat

/-- The double is finite and stands for the number, with its sign. -/
def Denotes (x : Float) (number : Rat) : Prop :=
  ∃ b, ofFloat? x = some b ∧ b.toRat = number

/-- The number with a sign of the model in front. -/
def signed (sign : Sign) (v : Rat) : Rat :=
  match sign with
  | .negative => -v
  | .positive => v

variable {x y : Float} {v w : Rat} {sign : Sign}

/-! ### Signs -/

theorem signed_zero (sign : Sign) : signed sign 0 = 0 := by
  cases sign
  · exact neg_zero
  · rfl

theorem signed_mul (sign other : Sign) (v w : Rat) :
    signed (sign * other) (v * w) = signed sign v * signed other w := by
  cases sign <;> cases other
  · exact (neg_mul_neg v w).symm
  · exact (neg_mul v w).symm
  · exact (mul_neg v w).symm
  · rfl

theorem cast_apply_mul (sign : Sign) (n : Nat) (unit : Rat) :
    ((sign.apply n : Int) : Rat) * unit = signed sign (n * unit) := by
  cases sign <;> simp [Sign.apply, signed]

theorem abs_signed (sign : Sign) {v : Rat} (nonneg : 0 ≤ v) : |signed sign v| = v := by
  cases sign
  · exact (abs_neg v).trans (abs_of_nonneg nonneg)
  · exact abs_of_nonneg nonneg

theorem signed_negative_lt (positive : 0 < v) : signed .negative v < 0 :=
  neg_neg_of_pos positive

theorem lt_signed_positive (positive : 0 < v) : 0 < signed .positive v :=
  positive

/-- A number is its magnitude with a sign. -/
theorem exists_signed (v : Rat) : ∃ sign, v = signed sign |v| := by
  rcases le_total 0 v with nonneg | negative
  · exact ⟨.positive, (abs_of_nonneg nonneg).symm⟩
  · exact ⟨.negative, by rw [signed, abs_of_nonpos negative, neg_neg]⟩

/-! ### The number that a double stands for -/

theorem magnitude_nonneg (b : Binary) : 0 ≤ b.magnitude := by
  unfold magnitude
  positivity

theorem magnitude_ofMagnitude (negative : Bool) (bits : Nat) :
    (ofMagnitude negative bits).magnitude = (ofMagnitude false bits).magnitude := by
  unfold ofMagnitude
  dsimp only
  split <;> rfl

theorem toRat_ofMagnitude {negative : Bool} (isSign : negative = true ↔ sign = .negative)
    (bits : Nat) :
    (ofMagnitude negative bits).toRat = signed sign (ofMagnitude false bits).magnitude := by
  rw [toRat, negative_ofMagnitude, magnitude_ofMagnitude]
  cases sign with
  | negative => rw [if_pos (isSign.mpr rfl), signed]
  | positive => rw [if_neg (fun isSet => nomatch isSign.mp isSet), signed]

/-- What a finite double decodes to. -/
theorem ofFloat?_of_isFinite (finite : x.isFinite = true) :
    ofFloat? x = some (ofMagnitude (hasSignBit x) (magnitudeBits x)) :=
  if_pos ((isFinite_iff x).mp finite)

/-- What a double denotes, by its bits. -/
theorem denotes_iff (isSign : hasSignBit x = true ↔ sign = .negative) :
    Denotes x v ↔
      x.isFinite = true ∧ signed sign (ofMagnitude false (magnitudeBits x)).magnitude = v := by
  have decoded : ofFloat? x =
      if magnitudeBits x < infinityBits then
        some (ofMagnitude (hasSignBit x) (magnitudeBits x)) else none := rfl
  rw [Denotes, decoded, isFinite_iff, ← toRat_ofMagnitude isSign]
  split
  next finite => simp [finite]
  next infinite => simp [infinite]

theorem Denotes.isFinite (denotes : Denotes x v) : x.isFinite = true := by
  obtain ⟨sign, -, -, -, -, isSign⟩ := exists_fields_toBits x
  exact ((denotes_iff isSign).mp denotes).1

theorem exists_denotes (finite : x.isFinite = true) : ∃ v, Denotes x v := by
  obtain ⟨sign, -, -, -, -, isSign⟩ := exists_fields_toBits x
  exact ⟨_, (denotes_iff isSign).mpr ⟨finite, rfl⟩⟩

theorem Denotes.unique (denotes : Denotes x v) (other : Denotes x w) : v = w := by
  obtain ⟨b, decoded, rfl⟩ := denotes
  obtain ⟨c, again, rfl⟩ := other
  rw [Option.some.inj (decoded.symm.trans again)]

theorem StandsFor.denotes (stands : StandsFor x v) : Denotes x v := by
  obtain ⟨finite, noSign, rfl⟩ := stands
  have isSign : hasSignBit x = true ↔ Sign.positive = .negative := by simp [noSign]
  exact (denotes_iff isSign).mpr ⟨finite, rfl⟩

/-- What a double that denotes a number unpacks to: a zero, or a sign, a mantissa and an exponent. -/
theorem Denotes.unpack_cases (denotes : Denotes x v) :
    ∃ sign, (hasSignBit x = true ↔ sign = .negative) ∧
      (v = 0 ∧ unpack Format.binary64 x.toBits.toBitVec = .zero sign ∨
        ∃ mantissa exponent positive,
          unpack Format.binary64 x.toBits.toBitVec = .finite sign mantissa exponent positive ∧
            v = signed sign (mantissa * 2 ^ exponent) ∧ leastExponent ≤ exponent ∧
              mantissa < 2 ^ 53 ∧ (2 ^ 52 ≤ mantissa ∨ exponent = leastExponent)) := by
  obtain ⟨sign, isSign, cases⟩ := exists_unpack denotes.isFinite
  obtain ⟨-, rfl⟩ := (denotes_iff isSign).mp denotes
  refine ⟨sign, isSign, ?_⟩
  rcases cases with ⟨none, isZero⟩ | ⟨mantissa, exponent, positive, unpacks, value, shape⟩
  · rw [none]
    exact Or.inl ⟨signed_zero sign, isZero⟩
  · rw [value]
    exact Or.inr ⟨mantissa, exponent, positive, unpacks, rfl, shape⟩

/-! ### Signed doubles from bits -/

/-- A double with a sign in front of a mantissa at its last place. -/
theorem denotes_of_toNat {place : Int} {mantissa : Nat} (least : leastExponent ≤ place)
    (digits : mantissa ≤ 2 ^ 53) (filled : leastExponent < place → 2 ^ 52 ≤ mantissa)
    (finite : packedBits place mantissa < infinityBits)
    (bits : x.toBits.toNat = sign.toBitVec.toNat * 2 ^ 63 + packedBits place mantissa) :
    Denotes x (signed sign (mantissa * 2 ^ place)) := by
  have within : packedBits place mantissa < 2 ^ 63 := finite.trans (by decide)
  have magnitude : magnitudeBits x = packedBits place mantissa := by
    rw [magnitudeBits, bits]
    show _ % 2 ^ 63 = _
    rw [Nat.mul_add_mod_of_lt within]
  have isSign : hasSignBit x = true ↔ sign = .negative := by
    rw [hasSignBit, decide_eq_true_eq, bits]
    show 2 ^ 63 ≤ _ ↔ _
    cases sign with
    | negative => exact iff_of_true (Nat.le_add_right _ _) rfl
    | positive =>
      refine iff_of_false (not_le.mpr ?_) (by simp)
      show 0 * 2 ^ 63 + _ < _
      rwa [Nat.zero_mul, Nat.zero_add]
  refine (denotes_iff isSign).mpr ⟨(isFinite_iff x).mpr (magnitude ▸ finite), ?_⟩
  rw [magnitude, magnitude_packedBits least digits filled finite]

/-- Zeros of both signs denote zero. -/
theorem denotes_zero (bits : x.toBits.toBitVec = pack Format.binary64 (.zero sign)) :
    Denotes x 0 := by
  have zero : Denotes x (signed sign ((0 : Nat) * 2 ^ leastExponent)) := by
    refine denotes_of_toNat le_rfl (Nat.zero_le _) (fun less => absurd less (lt_irrefl _))
      (by decide) ?_
    show x.toBits.toBitVec.toNat = _
    rw [bits]
    cases sign <;> decide
  rwa [Nat.cast_zero, zero_mul, signed_zero] at zero

/-- **The model rounds a result of any sign to the nearest double**, which stands for the rounded
magnitude with the sign. -/
theorem denotes_roundWithAccuracy {mantissa : Nat} {exponent : Int} {note : Accuracy}
    (positive : 0 < v) (describes : Describes note mantissa (v / 2 ^ exponent))
    (room : exponent ≤ Format.binary64.targetExponent (totalExponent mantissa exponent))
    (fits : v < leastInfinite)
    (bits : x.toBits.toBitVec =
      pack Format.binary64 (roundWithAccuracy Format.binary64 sign mantissa exponent note)) :
    Denotes x (signed sign (rounded v)) := by
  obtain ⟨least, digits, filled⟩ := roundHalfEven_lastPlace_spec positive
  refine denotes_of_toNat least digits filled ((packedBits_lt_iff positive).mpr fits) ?_
  show x.toBits.toBitVec.toNat = _
  rw [bits, toNat_pack_roundWithAccuracy sign positive describes room]

/-- Digits are appended to a mantissa until its exponent is that of the last place. -/
theorem denotes_round {mantissa : Nat} {exponent : Int} (positive : 0 < mantissa)
    (fits : (mantissa : Rat) * 2 ^ exponent < leastInfinite)
    (bits : x.toBits.toBitVec =
      pack Format.binary64 (UnpackedFloat.round Format.binary64 sign mantissa exponent)) :
    Denotes x (signed sign (rounded (mantissa * 2 ^ exponent))) := by
  have rounding : UnpackedFloat.round Format.binary64 sign mantissa exponent =
      let target := Format.binary64.targetExponent (totalExponent mantissa exponent)
      roundWithAccuracy Format.binary64 sign (mantissa <<< (exponent - target).toNat)
        (exponent - (exponent - target).toNat) .exact := rfl
  rw [rounding] at bits
  dsimp only at bits
  generalize isTarget : Format.binary64.targetExponent (totalExponent mantissa exponent) = target
    at bits
  generalize steps : (exponent - target).toNat = step at bits
  rw [Nat.shiftLeft_eq] at bits
  have log : (mantissa * 2 ^ step).log2 = mantissa.log2 + step := by
    rw [Nat.log2_eq_iff (Nat.mul_pos positive (Nat.two_pow_pos step)).ne', add_right_comm, pow_add,
      pow_add]
    exact ⟨Nat.mul_le_mul_right _ (Nat.log2_self_le positive.ne'),
      Nat.mul_lt_mul_of_pos_right Nat.lt_log2_self (Nat.two_pow_pos step)⟩
  have value : (mantissa : Rat) * 2 ^ exponent =
      (mantissa * 2 ^ step : Nat) * 2 ^ (exponent - step) := by
    rw [zpow_sub₀ (by norm_num), zpow_natCast]
    push_cast
    field_simp
  have power : (0 : Rat) < 2 ^ (exponent - step) := by positivity
  rw [value] at fits ⊢
  refine denotes_roundWithAccuracy (by positivity) ?_ ?_ fits bits
  · exact mul_div_cancel_right₀ _ power.ne'
  · rw [targetExponent_totalExponent] at isTarget ⊢
    rw [log]
    push_cast
    omega

/-! ### Rounding with a sign -/

/-- The number rounded to a whole number of units in its last place, whatever its sign. -/
def roundedSigned (v : Rat) : Rat :=
  if v < 0 then -rounded (-v) else rounded v

theorem roundedSigned_of_nonneg (nonneg : 0 ≤ v) : roundedSigned v = rounded v :=
  if_neg (not_lt.mpr nonneg)

theorem roundedSigned_signed (sign : Sign) (nonneg : 0 ≤ v) :
    roundedSigned (signed sign v) = signed sign (rounded v) := by
  unfold signed
  cases sign with
  | positive => exact roundedSigned_of_nonneg nonneg
  | negative =>
    dsimp only
    rcases nonneg.eq_or_lt with rfl | positive
    · rw [neg_zero, roundedSigned_of_nonneg le_rfl, rounded_zero, neg_zero]
    · rw [roundedSigned, if_pos (neg_neg_of_pos positive), neg_neg]

/-- A whole number of units, of any sign, is rounded to the nearest double. -/
theorem denotes_normalize {units : Int} {exponent : Int}
    (fits : |(units : Rat) * 2 ^ exponent| < leastInfinite)
    (bits : x.toBits.toBitVec =
      pack Format.binary64 (UnpackedFloat.normalize Format.binary64 units exponent .positive)) :
    Denotes x (roundedSigned (units * 2 ^ exponent)) := by
  have power : (0 : Rat) < 2 ^ exponent := by positivity
  unfold UnpackedFloat.normalize at bits
  rcases lt_trichotomy units 0 with below | rfl | above
  · obtain ⟨n, rfl⟩ : ∃ n : Nat, units = -n := ⟨units.natAbs, by omega⟩
    have positive : 0 < n := by omega
    have value : ((-(n : Int) : Int) : Rat) * 2 ^ exponent = signed .negative (n * 2 ^ exponent) := by
      rw [signed]
      push_cast
      ring
    rw [compare_lt_iff_lt.mpr below, neg_neg, Int.toNat_natCast] at bits
    rw [value, abs_signed _ (by positivity)] at fits
    rw [value, roundedSigned_signed _ (by positivity)]
    exact denotes_round positive fits bits
  · have zero : roundedSigned (((0 : Int) : Rat) * 2 ^ exponent) = 0 := by
      rw [Int.cast_zero, zero_mul, roundedSigned_of_nonneg le_rfl, rounded_zero]
    rw [zero]
    exact denotes_zero bits
  · obtain ⟨n, rfl⟩ : ∃ n : Nat, units = n := ⟨units.toNat, by omega⟩
    have positive : 0 < n := by omega
    have value : ((n : Int) : Rat) * 2 ^ exponent = signed .positive (n * 2 ^ exponent) := by
      rw [signed, Int.cast_natCast]
    rw [compare_gt_iff_gt.mpr above, Int.toNat_natCast] at bits
    rw [value, abs_signed _ (by positivity)] at fits
    rw [value, roundedSigned_signed _ (by positivity)]
    exact denotes_round positive fits bits

/-! ### Numbers that rounding leaves as they are -/

/-- The number has at most 53 binary digits, none of them below the least place. -/
def HasFewDigits (v : Rat) : Prop :=
  ∃ (digits : Nat) (place : Int), |v| = digits * 2 ^ place ∧ digits ≤ 2 ^ 53 ∧ leastExponent ≤ place

/-- A number of units of a place that is not finer than the last one has a whole number of units of
the last place. -/
theorem rounded_eq_self_of_units {digits : Nat} {place : Int}
    (coarse : lastPlace (digits * 2 ^ place) ≤ place) :
    rounded (digits * 2 ^ place) = digits * 2 ^ place := by
  obtain ⟨step, isStep⟩ := Int.le.dest coarse
  have power : (0 : Rat) < 2 ^ lastPlace (digits * 2 ^ place) := by positivity
  have units : (digits : Rat) * 2 ^ place / 2 ^ lastPlace (digits * 2 ^ place) =
      (digits * 2 ^ step : Nat) := by
    rw [div_eq_iff power.ne']
    conv_lhs => rw [← isStep]
    rw [zpow_add₀ (by norm_num), zpow_natCast]
    push_cast
    ring
  rw [rounded, units, roundHalfEven_natCast, ← units, div_mul_cancel₀ _ power.ne']

/-- The last place of a number with less than 53 binary digits at a place is not above the place. -/
theorem lastPlace_le {digits : Nat} {place : Int} (short : digits < 2 ^ 53)
    (least : leastExponent ≤ place) : lastPlace (digits * 2 ^ place) ≤ place := by
  unfold lastPlace
  split
  next => exact least
  next positive =>
    have power : (0 : Rat) < 2 ^ place := by positivity
    have below : (digits : Rat) * 2 ^ place < 2 ^ (53 + place) := by
      rw [zpow_add₀ (by norm_num)]
      gcongr
      exact_mod_cast short
    have order := (zpow_lt_zpow_iff_right₀ (by norm_num)).mp
      ((binaryOrder_spec (not_le.mp positive)).1.trans_lt below)
    omega

/-- **Rounding leaves a number with few digits as it is.** -/
theorem roundedSigned_eq_self (few : HasFewDigits v) : roundedSigned v = v := by
  obtain ⟨digits, place, value, atMost, least⟩ := few
  obtain ⟨sign, isSigned⟩ := exists_signed v
  have same : rounded |v| = |v| := by
    rw [value]
    rcases Nat.lt_or_eq_of_le atMost with short | rfl
    · exact rounded_eq_self_of_units (lastPlace_le short least)
    · -- The only number with one digit more has fewer digits at the next place.
      have next : ((2 ^ 53 : Nat) : Rat) * 2 ^ place = (2 ^ 52 : Nat) * 2 ^ (place + 1) := by
        rw [zpow_add₀ (by norm_num)]
        push_cast
        ring
      rw [next]
      exact rounded_eq_self_of_units (lastPlace_le (by decide) (by omega))
  conv_lhs => rw [isSigned]
  rw [roundedSigned_signed sign (abs_nonneg v), same, ← isSigned]

theorem hasFewDigits_signed (sign : Sign) {digits : Nat} {place : Int} (atMost : digits ≤ 2 ^ 53)
    (least : leastExponent ≤ place) : HasFewDigits (signed sign (digits * 2 ^ place)) :=
  ⟨digits, place, abs_signed sign (by positivity), atMost, least⟩

theorem HasFewDigits.neg (few : HasFewDigits v) : HasFewDigits (-v) := by
  rwa [HasFewDigits, abs_neg]

/-- What a double denotes has few digits. -/
theorem Denotes.hasFewDigits (denotes : Denotes x v) : HasFewDigits v := by
  obtain ⟨sign, -, ⟨rfl, -⟩ | ⟨mantissa, exponent, -, -, rfl, least, short, -⟩⟩ := denotes.unpack_cases
  · exact ⟨0, leastExponent, by simp, Nat.zero_le _, le_rfl⟩
  · exact hasFewDigits_signed sign short.le least

/-! ### Comparisons -/

/-- With a full mantissa, a larger exponent makes a larger number. -/
theorem scaled_lt {m₁ m₂ : Nat} {e₁ e₂ : Int} (short : m₁ < 2 ^ 53) (full : 2 ^ 52 ≤ m₂)
    (less : e₁ < e₂) : (m₁ : Rat) * 2 ^ e₁ < m₂ * 2 ^ e₂ :=
  calc (m₁ : Rat) * 2 ^ e₁ < 2 ^ 53 * 2 ^ e₁ := by
        gcongr
        exact_mod_cast short
    _ = 2 ^ 52 * 2 ^ (e₁ + 1) := by
        rw [zpow_add₀ (by norm_num)]
        ring
    _ ≤ m₂ * 2 ^ e₂ := by
        gcongr
        · exact_mod_cast full
        · norm_num
        · omega

/-- Mantissas and exponents compare as the magnitudes do. -/
theorem compare_scaled {m₁ m₂ : Nat} {e₁ e₂ : Int} (short₁ : m₁ < 2 ^ 53) (short₂ : m₂ < 2 ^ 53)
    (least₁ : leastExponent ≤ e₁) (least₂ : leastExponent ≤ e₂)
    (full₁ : 2 ^ 52 ≤ m₁ ∨ e₁ = leastExponent) (full₂ : 2 ^ 52 ≤ m₂ ∨ e₂ = leastExponent) :
    (compare e₁ e₂).then (compare m₁ m₂) = compare ((m₁ : Rat) * 2 ^ e₁) (m₂ * 2 ^ e₂) := by
  rcases lt_trichotomy e₁ e₂ with less | rfl | more
  · have full := full₂.resolve_right (by omega)
    rw [compare_lt_iff_lt.mpr less, compare_lt_iff_lt.mpr (scaled_lt short₁ full less)]
    rfl
  · have power : (0 : Rat) < 2 ^ e₁ := by positivity
    rw [compare_eq_iff_eq.mpr (rfl : e₁ = e₁)]
    show compare m₁ m₂ = _
    rcases lt_trichotomy m₁ m₂ with less | rfl | more
    · have scaled : (m₁ : Rat) * 2 ^ e₁ < m₂ * 2 ^ e₁ := by gcongr
      rw [compare_lt_iff_lt.mpr less, compare_lt_iff_lt.mpr scaled]
    · rw [compare_eq_iff_eq.mpr rfl, compare_eq_iff_eq.mpr rfl]
    · have scaled : (m₂ : Rat) * 2 ^ e₁ < m₁ * 2 ^ e₁ := by gcongr
      rw [compare_gt_iff_gt.mpr more, compare_gt_iff_gt.mpr scaled]
  · have full := full₁.resolve_right (by omega)
    rw [compare_gt_iff_gt.mpr more, compare_gt_iff_gt.mpr (scaled_lt short₂ full more)]
    rfl

theorem swap_compare (v w : Rat) : (compare v w).swap = compare (-v) (-w) := by
  rcases lt_trichotomy v w with less | rfl | more
  · rw [compare_lt_iff_lt.mpr less, compare_gt_iff_gt.mpr (neg_lt_neg less)]
    rfl
  · rw [compare_eq_iff_eq.mpr rfl, compare_eq_iff_eq.mpr rfl]
    rfl
  · rw [compare_gt_iff_gt.mpr more, compare_lt_iff_lt.mpr (neg_lt_neg more)]
    rfl

/-- **Doubles compare as the numbers do that they denote.** -/
theorem Denotes.compare_eq (left : Denotes x v) (right : Denotes y w) :
    (unpack Format.binary64 x.toBits.toBitVec).compare (unpack Format.binary64 y.toBits.toBitVec) =
      some (compare v w) := by
  obtain ⟨s₁, -, ⟨rfl, isFirst⟩ | ⟨m₁, e₁, positive₁, isFirst, rfl, least₁, short₁, full₁⟩⟩ :=
    left.unpack_cases <;>
  obtain ⟨s₂, -, ⟨rfl, isSecond⟩ | ⟨m₂, e₂, positive₂, isSecond, rfl, least₂, short₂, full₂⟩⟩ :=
    right.unpack_cases <;>
  rw [isFirst, isSecond]
  · rw [compare_eq_iff_eq.mpr rfl]
    rfl
  · have magnitude : (0 : Rat) < m₂ * 2 ^ e₂ := by positivity
    cases s₂ with
    | negative =>
      rw [compare_gt_iff_gt.mpr (signed_negative_lt magnitude)]
      rfl
    | positive =>
      rw [compare_lt_iff_lt.mpr (lt_signed_positive magnitude)]
      rfl
  · have magnitude : (0 : Rat) < m₁ * 2 ^ e₁ := by positivity
    cases s₁ with
    | negative =>
      rw [compare_lt_iff_lt.mpr (signed_negative_lt magnitude)]
      rfl
    | positive =>
      rw [compare_gt_iff_gt.mpr (lt_signed_positive magnitude)]
      rfl
  · have magnitude₁ : (0 : Rat) < m₁ * 2 ^ e₁ := by positivity
    have magnitude₂ : (0 : Rat) < m₂ * 2 ^ e₂ := by positivity
    have magnitudes := compare_scaled short₁ short₂ least₁ least₂ full₁ full₂
    cases s₁ <;> cases s₂
    · show some ((compare e₁ e₂).then (compare m₁ m₂)).swap = _
      rw [magnitudes, swap_compare]
      rfl
    · rw [compare_lt_iff_lt.mpr
        ((signed_negative_lt magnitude₁).trans (lt_signed_positive magnitude₂))]
      rfl
    · rw [compare_gt_iff_gt.mpr
        ((signed_negative_lt magnitude₂).trans (lt_signed_positive magnitude₁))]
      rfl
    · show some ((compare e₁ e₂).then (compare m₁ m₂)) = _
      rw [magnitudes]
      rfl

theorem Denotes.le_iff (left : Denotes x v) (right : Denotes y w) : x ≤ y ↔ v ≤ w := by
  show decide (((unpack Format.binary64 x.toBits.toBitVec).compare
    (unpack Format.binary64 y.toBits.toBitVec)).any (·.isLE) = true) = true ↔ _
  rw [left.compare_eq right, decide_eq_true_eq, Option.any_some, Ordering.isLE_iff_ne_gt,
    compare_gt_iff_gt, not_lt]

theorem Denotes.lt_iff (left : Denotes x v) (right : Denotes y w) : x < y ↔ v < w := by
  show decide (((unpack Format.binary64 x.toBits.toBitVec).compare
    (unpack Format.binary64 y.toBits.toBitVec) == some .lt) = true) = true ↔ _
  rw [left.compare_eq right, decide_eq_true_eq, beq_iff_eq, Option.some.injEq, compare_lt_iff_lt]

theorem Denotes.beq_iff (left : Denotes x v) (right : Denotes y w) : (x == y) = true ↔ v = w := by
  show ((unpack Format.binary64 x.toBits.toBitVec).compare
    (unpack Format.binary64 y.toBits.toBitVec) == some .eq) = true ↔ _
  rw [left.compare_eq right, beq_iff_eq, Option.some.injEq, compare_eq_iff_eq]

end Binary

end Worksheet
