/-
**Six places are rounded correctly.**

A number is a tie for six places if it lies halfway between two millionths. A double that is one has
seven places after the point, the last a `5`, and gives a whole number when it is taken 128 times;
and only ties have these properties. So the text has the nearest number of millionths, a tie rounded
away from zero, and it is written without needless characters.

* `Binary.exists_of_tie`: a tie is an odd number of parts of 128;
* `tieDigits?_eq_some_iff`: the ties are found, and nothing else;
* `dropLast_unitsText`: without what is needless at its end, the text is that of a decimal;
* `IsNearestMillionths` says which millionth is the right one, `IsCanonical` how it is written;
* `sixPlacesText_eq` and `sixPlacesText_spec`: what the text is and what it stands for.
-/

import Worksheet.Number.Places
import Worksheet.Proofs.Number.DecimalText
import Worksheet.Proofs.Number.Whole

namespace Worksheet

/-! ### The last digit -/

/-- The last digit of a number. -/
theorem getLast?_toDigits (n : Nat) :
    (Nat.toDigits 10 n).getLast? = some (n % 10).digitChar := by
  rcases Nat.lt_or_ge n 10 with single | more
  · rw [Nat.toDigits_of_lt_base single, Nat.mod_eq_of_lt single]
    rfl
  · rw [Nat.toDigits_of_base_le (by decide) more, List.getLast?_concat]

/-- The first digit of a number is zero for zero alone. -/
theorem head?_toDigits {n : Nat} (positive : 0 < n) : (Nat.toDigits 10 n).head? ≠ some '0' := by
  induction n using Nat.strongRecOn with
  | ind n ih =>
    rcases Nat.lt_or_ge n 10 with single | more
    · rw [Nat.toDigits_of_lt_base single, List.head?_cons]
      intro isZero
      rw [Option.some.injEq, Nat.digitChar_eq_zero] at isZero
      omega
    · rw [Nat.toDigits_of_base_le (by decide) more, List.head?_append_of_ne_nil _ Nat.toDigits_ne_nil]
      exact ih (n / 10) (by omega) (by omega)

theorem getLast?_zeroPadded (width n : Nat) :
    (Text.zeroPadded width n).getLast? = some (n % 10).digitChar := by
  unfold Text.zeroPadded
  dsimp only
  rw [List.getLast?_append, getLast?_toDigits, Option.some_or]

theorem getLast?_unitsText {places : Nat} (positive : 0 < places) (units : Nat) :
    (unitsText places units).getLast? = some (units % 10).digitChar := by
  have divides : 10 ∣ Nat.pow 10 places := dvd_pow_self 10 positive.ne'
  unfold unitsText
  rw [List.append_cons, List.getLast?_append, getLast?_zeroPadded, Option.some_or,
    Nat.mod_mod_of_dvd _ divides]

/-- The digits of a text of units are read as the number of units. -/
theorem wideNumber?_unitsText {places units : Nat} (positive : 0 < places) (fits : units < 2 ^ 128) :
    wideNumber? ((unitsText places units).filter (· != '.')) = some units := by
  have wholeDigits := Decimal.isDigit_toDigits (units / Nat.pow 10 places)
  have fractionDigits := Decimal.isDigit_zeroPadded places (units % Nat.pow 10 places)
  have isKept {c : Char} (digit : c.isDigit = true) : (c != '.') = true := by
    rw [bne_iff_ne]
    rintro rfl
    exact absurd digit (by decide)
  have digits : (unitsText places units).filter (· != '.') =
      Nat.toDigits 10 (units / Nat.pow 10 places) ++
        Text.zeroPadded places (units % Nat.pow 10 places) := by
    unfold unitsText
    rw [List.filter_append, List.filter_cons_of_neg (by decide),
      List.filter_eq_self.mpr fun c isIn => isKept (wholeDigits c isIn),
      List.filter_eq_self.mpr fun c isIn => isKept (fractionDigits c isIn)]
  have number : Nat.ofDigitChars 10 (Nat.toDigits 10 (units / Nat.pow 10 places) ++
      Text.zeroPadded places (units % Nat.pow 10 places)) 0 = units := by
    rw [Nat.pow_eq, Nat.ofDigitChars_append, Nat.ofDigitChars_ten_toDigits,
      Decimal.ofDigitChars_zeroPadded _ _ _ (Nat.mod_lt _ (by positivity)) positive]
    exact Nat.div_add_mod units _
  have all : (Nat.toDigits 10 (units / Nat.pow 10 places) ++
      Text.zeroPadded places (units % Nat.pow 10 places)).all Char.isDigit = true := by
    rw [List.all_eq_true]
    exact List.forall_mem_append.mpr ⟨wholeDigits, fractionDigits⟩
  unfold wideNumber?
  rw [digits, all, number, if_neg (by simp [Nat.toDigits_ne_nil])]
  exact if_pos fits

/-! ### The nearest whole number -/

/-- The whole number nearest to a number; a half goes up. -/
def nearestWhole (y : Rat) : Nat :=
  ⌊y + 1 / 2⌋.toNat

theorem nearestWhole_eq {y : Rat} {n : Nat} (low : (n : Rat) ≤ y + 1 / 2)
    (high : y + 1 / 2 < n + 1) : nearestWhole y = n :=
  floor_toNat_eq low high

theorem nearestWhole_spec {y : Rat} (nonneg : 0 ≤ y) :
    (nearestWhole y : Rat) ≤ y + 1 / 2 ∧ y + 1 / 2 < nearestWhole y + 1 := by
  have whole : ((nearestWhole y : Nat) : Int) = ⌊y + 1 / 2⌋ :=
    Int.toNat_of_nonneg (Int.floor_nonneg.mpr (by linarith))
  rw [← Int.cast_natCast, whole]
  exact ⟨Int.floor_le _, Int.lt_floor_add_one _⟩

/-- Apart from ties, it does not matter where a tie goes. -/
theorem roundHalfEven_eq_nearestWhole {y : Rat} (nonneg : 0 ≤ y)
    (noTie : ∀ n : Nat, y ≠ n + 1 / 2) : roundHalfEven y = nearestWhole y := by
  obtain ⟨below, low, high, ⟨less, same⟩ | ⟨tie, -⟩ | ⟨more, same⟩⟩ := roundHalfEven_cases nonneg
  · rw [same, nearestWhole_eq (n := below) (by linarith) (by linarith)]
  · exact absurd tie (noTie below)
  · rw [same, nearestWhole_eq (n := below + 1)] <;> push_cast <;> linarith

/-! ### Ties -/

namespace Binary

variable {x : Float} {v : Rat}

/-- An odd number of parts of 128 has no fewer digits in front of a power of two. -/
theorem parts_le {digits parts k : Nat} (same : digits * 128 = parts * 2 ^ k)
    (odd : parts % 2 = 1) : parts ≤ digits := by
  rcases Nat.lt_or_ge k 7 with less | more
  · -- The power of two would leave a factor two for the parts.
    obtain ⟨rest, isRest⟩ := Nat.le.dest less
    have power : (128 : Nat) = 2 ^ k * (2 * 2 ^ rest) := by
      rw [← pow_succ', ← pow_add, show k + (rest + 1) = 7 by omega]
      rfl
    rw [power, mul_left_comm, mul_comm parts, mul_left_comm digits] at same
    have even := Nat.eq_of_mul_eq_mul_left (Nat.two_pow_pos k) same
    omega
  · obtain ⟨rest, isRest⟩ := Nat.le.dest more
    have power : 2 ^ k = 128 * 2 ^ rest := by
      rw [← isRest, pow_add]
      rfl
    rw [power, mul_left_comm, mul_comm digits] at same
    calc parts = parts * 1 := (mul_one parts).symm
      _ ≤ parts * 2 ^ rest := Nat.mul_le_mul_left parts Nat.one_le_two_pow
      _ = digits := (Nat.eq_of_mul_eq_mul_left (by decide) same).symm

/-- An odd number of half millionths that is a number of parts of a power of two is one of parts of
128. -/
theorem exists_parts {digits n k : Nat} (scaled : digits * 2000000 = (2 * n + 1) * 2 ^ k) :
    ∃ parts, digits * 128 = parts * 2 ^ k ∧ parts ≤ digits ∧ 2 * n + 1 = 15625 * parts := by
  have divides : 15625 ∣ (2 * n + 1) * 2 ^ k := ⟨digits * 128, by omega⟩
  have coprime : Nat.Coprime 15625 (2 ^ k) := Nat.Coprime.pow_right k (by norm_num)
  obtain ⟨parts, isParts⟩ := coprime.dvd_of_dvd_mul_right divides
  have same : digits * 128 = parts * 2 ^ k := by
    rw [isParts, mul_assoc] at scaled
    omega
  have odd : Odd (15625 * parts) := ⟨n, isParts.symm⟩
  exact ⟨parts, same, parts_le same (Nat.odd_iff.mp (Nat.odd_mul.mp odd).2), isParts⟩

/-- **A tie is an odd number of parts of 128**, which has few enough digits to be exact. -/
theorem exists_of_tie {n : Nat} (few : HasFewDigits v) (tie : |v| * 1000000 = n + 1 / 2) :
    ∃ parts : Nat, |v| * 128 = parts ∧ parts ≤ 2 ^ 53 ∧ 2 * n + 1 = 15625 * parts := by
  obtain ⟨digits, place, value, atMost, -⟩ := few
  rw [value] at tie ⊢
  rcases le_or_gt 0 place with whole | places
  · obtain ⟨k, rfl⟩ := Int.eq_ofNat_of_zero_le whole
    have odd : digits * 2 ^ k * 1000000 * 2 = 2 * n + 1 := by
      have doubled : (digits * 2 ^ (k : Int) * 1000000 * 2 : Rat) = 2 * n + 1 := by linarith
      exact_mod_cast doubled
    omega
  · obtain ⟨k, rfl⟩ : ∃ k : Nat, place = -k := ⟨(-place).toNat, by omega⟩
    have power : (0 : Rat) < 2 ^ k := by positivity
    rw [zpow_neg, zpow_natCast, ← div_eq_mul_inv] at tie ⊢
    have scaled : digits * 2000000 = (2 * n + 1) * 2 ^ k := by
      rw [div_mul_eq_mul_div, div_eq_iff power.ne'] at tie
      have doubled : (digits * 2000000 : Rat) = (2 * n + 1) * 2 ^ k := by linarith
      exact_mod_cast doubled
    obtain ⟨parts, same, short, isParts⟩ := exists_parts scaled
    refine ⟨parts, ?_, short.trans atMost, isParts⟩
    rw [div_mul_eq_mul_div, div_eq_iff power.ne']
    exact_mod_cast same

/-- An odd number of parts of 128 is a tie. -/
theorem tie_of_parts {parts : Nat} (isParts : |v| * 128 = parts) (odd : parts % 2 = 1) :
    |v| * 1000000 = (15625 * parts / 2 : Nat) + 1 / 2 := by
  have halves : 2 * (15625 * parts / 2) + 1 = 15625 * parts := by omega
  have doubled : (2 * (15625 * parts / 2 : Nat) + 1 : Rat) = 15625 * parts := by
    exact_mod_cast halves
  linarith

/-- What a double decodes to, by what it denotes. -/
theorem Denotes.exists_ofFloat? (denotes : Denotes x v) :
    ∃ b, ofFloat? x = some b ∧ b.negative = hasSignBit x ∧ b.magnitude = |v| := by
  obtain ⟨sign, isSign, -⟩ := denotes.unpack_cases
  obtain ⟨finite, rfl⟩ := (denotes_iff isSign).mp denotes
  refine ⟨_, ofFloat?_of_isFinite finite, negative_ofMagnitude _ _, ?_⟩
  rw [magnitude_ofMagnitude, abs_signed sign (magnitude_nonneg _)]

/-- The text of a double with some places. -/
theorem Denotes.placesText_eq (denotes : Denotes x v) (places : Nat) :
    placesText places x = (if hasSignBit x then ['-'] else []) ++
      unitsText places (roundHalfEven (|v| * 10 ^ places)) := by
  obtain ⟨b, decoded, isSign, magnitude⟩ := denotes.exists_ofFloat?
  unfold placesText
  rw [decoded]
  dsimp only
  rw [isSign, magnitude]

/-- The text of the magnitude of a double with some places. -/
theorem Denotes.placesText_abs (denotes : Denotes x v) (places : Nat) :
    placesText places x.abs = unitsText places (roundHalfEven (|v| * 10 ^ places)) := by
  obtain ⟨b, decoded, -, magnitude⟩ := denotes.exists_ofFloat?
  have same := Option.some.inj ((ofFloat?_of_isFinite denotes.isFinite).symm.trans decoded)
  have unsigned : (ofMagnitude false (magnitudeBits x)).magnitude = |v| := by
    rw [← magnitude, ← same, magnitude_ofMagnitude (hasSignBit x)]
  unfold placesText
  rw [ofFloat?_abs denotes.isFinite]
  dsimp only
  rw [unsigned, negative_ofMagnitude]
  rfl

theorem denotes_128 : Denotes 128.0 128 :=
  ⟨⟨false, 2 ^ 52, -45⟩, rfl, by norm_num [toRat, magnitude]⟩

theorem HasFewDigits.mul_128 (few : HasFewDigits v) : HasFewDigits (v * 128) := by
  obtain ⟨digits, place, value, atMost, least⟩ := few
  refine ⟨digits, place + 7, ?_, atMost, by omega⟩
  rw [abs_mul, value, zpow_add₀ (by norm_num), mul_assoc]
  norm_num

/-- Taking a double 128 times is exact unless the result is too large. -/
theorem Denotes.mul_128 (denotes : Denotes x v) (fits : |v * 128| < leastInfinite) :
    Denotes (x * 128.0) (v * 128) := by
  have product := denotes.mul denotes_128 fits
  rwa [roundedSigned_eq_self denotes.hasFewDigits.mul_128] at product

/-- What is too large has no fraction to begin with, so that only whole numbers have none. -/
theorem exists_of_fraction (denotes : Denotes x v)
    (noFraction : (fraction (x * 128.0) == 0.0) = true) : ∃ parts : Nat, |v| * 128 = parts := by
  suffices whole : Int.fract (v * 128) = 0 by
    obtain ⟨n, isWhole⟩ := Int.fract_eq_zero_iff.mp whole
    refine ⟨n.natAbs, ?_⟩
    rw [← abs_of_pos (show (0 : Rat) < 128 by norm_num), ← abs_mul, ← isWhole, Nat.cast_natAbs,
      Int.cast_abs]
  rcases lt_or_ge |v * 128| leastInfinite with fits | large
  · exact (denotes.mul_128 fits).fraction_beq_zero_iff.mp noFraction
  · rcases denotes.hasFewDigits.fract_eq_zero_or with whole | ⟨units, places, -, -, isUnits, small⟩
    · obtain ⟨n, rfl⟩ := Int.fract_eq_zero_iff.mp whole
      exact_mod_cast Int.fract_intCast (n * 128)
    · exfalso
      have power : (1 : Rat) ≤ (2 ^ places : Nat) := by exact_mod_cast Nat.one_le_two_pow
      have size : |v| ≤ 2 ^ 53 := by
        have most : |(units : Rat)| ≤ 2 ^ 53 := by exact_mod_cast small
        rw [isUnits, abs_div, abs_of_pos (one_pos.trans_le power)]
        exact (div_le_self (abs_nonneg _) power).trans most
      have below := large.trans_lt' two_pow_lt_leastInfinite
      rw [abs_mul, abs_of_pos (show (0 : Rat) < 128 by norm_num)] at below
      linarith

/-- The magnitude with seven places, for a whole number of parts of 128. -/
theorem placesText_of_parts (denotes : Denotes x v) {units : Nat} (isUnits : |v| * 10 ^ 7 = units) :
    placesText 7 x.abs = unitsText 7 units := by
  rw [denotes.placesText_abs, isUnits, roundHalfEven_natCast]

/-- A tie is found, and its digits are read. -/
theorem tieDigits?_of_tie (denotes : Denotes x v) {n : Nat} (tie : |v| * 1000000 = n + 1 / 2) :
    tieDigits? x = some (10 * n + 5) := by
  have last : (10 * n + 5) % 10 = 5 := by omega
  obtain ⟨parts, isParts, short, halves⟩ := exists_of_tie denotes.hasFewDigits tie
  have isUnits : |v| * 10 ^ 7 = (10 * n + 5 : Nat) := by
    push_cast
    linarith
  have magnitude : |v * 128| = parts := by
    rw [abs_mul, abs_of_pos (show (0 : Rat) < 128 by norm_num), isParts]
  have fits : |v * 128| < leastInfinite := by
    have most : (parts : Rat) ≤ 2 ^ 53 := by exact_mod_cast short
    rw [magnitude]
    exact lt_trans (by linarith) two_pow_lt_leastInfinite
  have whole : Int.fract (v * 128) = 0 := by
    rcases eq_or_eq_neg_of_abs_eq magnitude with same | negated
    · rw [same, Int.fract_natCast]
    · rw [negated, Int.fract_neg_eq_zero, Int.fract_natCast]
  have noFraction := (denotes.mul_128 fits).fraction_beq_zero_iff.mpr whole
  have wide : 10 * n + 5 < 2 ^ 128 :=
    calc 10 * n + 5 = 5 * (2 * n + 1) := by ring
      _ = 5 * (15625 * parts) := by rw [halves]
      _ ≤ 5 * (15625 * 2 ^ 53) := by gcongr
      _ < 2 ^ 128 := by norm_num
  unfold tieDigits?
  dsimp only
  rw [placesText_of_parts denotes isUnits, getLast?_unitsText (by decide), noFraction, last]
  exact wideNumber?_unitsText (by decide) wide

/-- What is found is a tie. -/
theorem exists_tie_of_tieDigits? (denotes : Denotes x v) {digits : Nat}
    (reads : tieDigits? x = some digits) : ∃ n : Nat, |v| * 1000000 = n + 1 / 2 := by
  unfold tieDigits? at reads
  dsimp only at reads
  split at reads
  next found =>
    obtain ⟨noFraction, last⟩ := Bool.and_eq_true_iff.mp found
    obtain ⟨parts, isParts⟩ := exists_of_fraction denotes noFraction
    have isUnits : |v| * 10 ^ 7 = (78125 * parts : Nat) := by
      push_cast
      linarith
    rw [placesText_of_parts denotes isUnits, getLast?_unitsText (by decide), beq_iff_eq,
      Option.some.injEq, Nat.digitChar_eq_five] at last
    have odd : Odd (78125 * parts) := by
      generalize 78125 * parts = units at last ⊢
      exact Nat.odd_iff.mpr (by omega)
    exact ⟨_, tie_of_parts isParts (Nat.odd_iff.mp (Nat.odd_mul.mp odd).2)⟩
  next => cases reads

/-! ### Six places -/

/-- The doubles with the sign bit are those below zero, and zero with a sign. -/
theorem Denotes.lt_zero_iff_hasSignBit (denotes : Denotes x v) (nonzero : v ≠ 0) :
    x < 0.0 ↔ hasSignBit x = true := by
  obtain ⟨sign, isSign, -⟩ := denotes.unpack_cases
  have value := ((denotes_iff isSign).mp denotes).2
  have nonneg := magnitude_nonneg (ofMagnitude false (magnitudeBits x))
  rw [denotes.lt_iff denotes_zeroLiteral, isSign]
  cases sign with
  | positive =>
    rw [signed] at value
    exact iff_of_false (not_lt.mpr (value ▸ nonneg)) (by simp)
  | negative =>
    rw [signed] at value
    exact iff_of_true (lt_of_le_of_ne (by linarith) nonzero) rfl

/-- **Six places are those of the nearest millionth**, a tie going away from zero. -/
theorem Denotes.roundedText_eq (denotes : Denotes x v) :
    roundedText x = (if hasSignBit x then ['-'] else []) ++
      unitsText 6 (nearestWhole (|v| * 1000000)) := by
  unfold roundedText
  cases reads : tieDigits? x with
  | some digits =>
    obtain ⟨n, tie⟩ := exists_tie_of_tieDigits? denotes reads
    rw [tieDigits?_of_tie denotes tie, Option.some.injEq] at reads
    have rounded : nearestWhole (|v| * 1000000) = digits / 10 + 1 := by
      have next : digits / 10 = n := by omega
      rw [next, tie]
      apply nearestWhole_eq <;> push_cast <;> linarith
    have nonzero : v ≠ 0 := by
      rintro rfl
      rw [abs_zero, zero_mul] at tie
      have nonneg : (0 : Rat) ≤ n := n.cast_nonneg
      linarith
    dsimp only
    simp only [denotes.lt_zero_iff_hasSignBit nonzero, rounded]
  | none =>
    have noTie (n : Nat) : |v| * 1000000 ≠ n + 1 / 2 := by
      intro tie
      rw [tieDigits?_of_tie denotes tie] at reads
      cases reads
    dsimp only
    rw [denotes.placesText_eq, show (10 : Rat) ^ 6 = 1000000 by norm_num,
      roundHalfEven_eq_nearestWhole (by positivity) noTie]

end Binary

/-! ### Leaving zeros out -/

theorem dropLast_append_replicate (c : Char) (text : Text) (copies : Nat) :
    dropLast c (text ++ List.replicate copies c) = dropLast c text := by
  unfold dropLast
  rw [List.reverse_append, List.reverse_replicate, List.dropWhile_append_of_pos]
  intro d isIn
  rw [List.eq_of_mem_replicate isIn]
  exact beq_self_eq_true c

theorem dropLast_eq_self {c : Char} {text : Text} (other : text.getLast? ≠ some c) :
    dropLast c text = text := by
  rcases List.eq_nil_or_concat text with rfl | ⟨front, d, rfl⟩
  · rfl
  · rw [List.concat_eq_append, List.getLast?_concat, ne_eq, Option.some.injEq] at other
    unfold dropLast
    rw [List.concat_eq_append, List.reverse_append, List.reverse_singleton, List.singleton_append,
      List.dropWhile_cons_of_neg (by simpa using other), List.reverse_cons, List.reverse_reverse]

theorem getLast?_dropLast (c : Char) (text : Text) : (dropLast c text).getLast? ≠ some c := by
  unfold dropLast
  rw [List.getLast?_reverse]
  intro isHead
  have kept := List.head?_dropWhile_not (· == c) text.reverse
  rw [isHead] at kept
  simp at kept

theorem getLast?_ne_point {text : Text} (digits : ∀ c ∈ text, c.isDigit = true) :
    text.getLast? ≠ some '.' := fun last =>
  absurd (digits '.' (List.mem_of_getLast? last)) (by decide)

/-- A whole part and a fraction with a point between them, unless there is no fraction. -/
def positional (whole fraction : Text) : Text :=
  match fraction with
  | [] => whole
  | fraction => whole ++ '.' :: fraction

/-- The text of a decimal has a whole part and a fraction. -/
theorem Decimal.toText_eq (d : Decimal) :
    d.toText =
      let places := (-d.exponent).toNat
      let scaled := d.coefficient * Nat.pow 10 d.exponent.toNat
      positional (Nat.toDigits 10 (scaled / Nat.pow 10 places))
        (fractionText places (scaled % Nat.pow 10 places)) :=
  rfl

/-- What is needless at the end of digits, a point and a fraction are the zeros, and the point if
nothing is left behind it. -/
theorem dropLast_point (lead : Text) {whole fraction : Text}
    (wholeDigits : ∀ c ∈ whole, c.isDigit = true) (nonempty : whole ≠ [])
    (fractionDigits : ∀ c ∈ fraction, c.isDigit = true) (noZero : fraction.getLast? ≠ some '0')
    (zeros : Nat) :
    dropLast '.' (dropLast '0' (lead ++ (whole ++ '.' :: (fraction ++ List.replicate zeros '0')))) =
      lead ++ positional whole fraction := by
  have behind : lead ++ (whole ++ '.' :: (fraction ++ List.replicate zeros '0')) =
      lead ++ (whole ++ '.' :: fraction) ++ List.replicate zeros '0' := by
    simp only [List.append_assoc, List.cons_append]
  rw [behind, dropLast_append_replicate]
  cases fraction with
  | nil =>
    have withPoint : lead ++ (whole ++ ['.']) = lead ++ whole ++ List.replicate 1 '.' := by
      rw [List.append_assoc]
      rfl
    have last : (lead ++ whole).getLast? ≠ some '.' := by
      rw [List.getLast?_append_of_ne_nil _ nonempty]
      exact getLast?_ne_point wholeDigits
    rw [dropLast_eq_self (c := '0') (by simp), withPoint, dropLast_append_replicate,
      dropLast_eq_self last]
    rfl
  | cons d others =>
    have same : (lead ++ (whole ++ '.' :: d :: others)).getLast? = (d :: others).getLast? := by
      rw [List.append_cons, ← List.append_assoc, ← List.append_assoc,
        List.getLast?_append_of_ne_nil _ (List.cons_ne_nil d others)]
    have noZero := same ▸ noZero
    have noPoint := same ▸ getLast?_ne_point fractionDigits
    rw [dropLast_eq_self noZero, dropLast_eq_self noPoint]
    rfl

/-- A text of millionths without what is needless at its end is the text of the decimal. -/
theorem dropLast_unitsText (lead : Text) (units : Nat) :
    dropLast '.' (dropLast '0' (lead ++ unitsText 6 units)) =
      lead ++ Decimal.toText ⟨units, -6⟩ := by
  have decimal : Decimal.toText ⟨units, -6⟩ =
      positional (Nat.toDigits 10 (units / Nat.pow 10 6))
        (Decimal.fractionText 6 (units % Nat.pow 10 6)) := by
    conv_rhs => rw [← Nat.mul_one units]
    rfl
  obtain ⟨zeros, padded⟩ := Decimal.zeroPadded_eq 6 (units % Nat.pow 10 6)
  rw [decimal, unitsText, padded]
  exact dropLast_point lead (Decimal.isDigit_toDigits _) Nat.toDigits_ne_nil
    (Decimal.isDigit_fractionText 6 _) (getLast?_dropLast '0' _) zeros

/-- **The text of a double with at most six places** is that of the nearest number of millionths,
behind the sign. -/
theorem sixPlacesText_eq {x : Float} {v : Rat} (denotes : Binary.Denotes x v) :
    sixPlacesText x = (if hasSignBit x then ['-'] else []) ++
      Decimal.toText ⟨nearestWhole (|v| * 1000000), -6⟩ := by
  have point (lead : Text) (units : Nat) : (lead ++ unitsText 6 units).contains '.' = true := by
    simp [unitsText]
  unfold sixPlacesText
  dsimp only
  rw [denotes.roundedText_eq, if_pos (point _ _), dropLast_unitsText]

/-! ### What the text says -/

/-- Of all whole numbers of millionths this is the nearest one to the number, and of two that are
equally near the one farther from zero. -/
def IsNearestMillionths (v : Rat) (units : Int) : Prop :=
  ∀ other : Int, other ≠ units →
    |v - units / 1000000| < |v - other / 1000000| ∨
      |v - units / 1000000| = |v - other / 1000000| ∧ |other| < |units|

/-- Digits without needless zeros in front, and a fraction without zeros at its end, with a point
between them unless there is no fraction. -/
def IsCanonical (text : Text) : Prop :=
  ∃ whole fraction : Text, text = positional whole fraction ∧
    (∀ c ∈ whole, c.isDigit = true) ∧ whole ≠ [] ∧ (whole.head? = some '0' → whole = ['0']) ∧
      (∀ c ∈ fraction, c.isDigit = true) ∧ fraction.getLast? ≠ some '0'

/-- The text of every decimal is canonical. -/
theorem Decimal.isCanonical_toText (d : Decimal) : IsCanonical d.toText := by
  rw [d.toText_eq]
  dsimp only
  generalize (-d.exponent).toNat = places
  generalize d.coefficient * Nat.pow 10 d.exponent.toNat = scaled
  refine ⟨_, _, rfl, isDigit_toDigits _, Nat.toDigits_ne_nil, fun isZero => ?_,
    isDigit_fractionText places _, getLast?_dropLast '0' _⟩
  rcases Nat.eq_zero_or_pos (scaled / Nat.pow 10 places) with none | positive
  · rw [none, Nat.toDigits_zero]
  · exact absurd isZero (head?_toDigits positive)

/-- The number of millionths that a number without sign is rounded to. -/
theorem isNearestMillionths_nearestWhole {v : Rat} (nonneg : 0 ≤ v) :
    IsNearestMillionths v (nearestWhole (v * 1000000)) := by
  have million : (0 : Rat) < 1000000 := by norm_num
  have inMillionths (n : Int) : |v - n / 1000000| = |v * 1000000 - n| / 1000000 := by
    rw [← abs_of_pos million, ← abs_div, abs_of_pos million, sub_div,
      mul_div_cancel_right₀ _ million.ne']
  have scaledNonneg : 0 ≤ v * 1000000 := by positivity
  intro other differs
  rw [inMillionths, inMillionths, div_lt_div_iff_of_pos_right million, div_left_inj' million.ne']
  generalize v * 1000000 = y at scaledNonneg differs ⊢
  obtain ⟨low, high⟩ := nearestWhole_spec scaledNonneg
  generalize nearestWhole y = n at low high differs ⊢
  rw [Int.cast_natCast, Nat.abs_cast]
  have near : |y - n| ≤ 1 / 2 := abs_le.mpr ⟨by linarith, by linarith⟩
  rcases lt_or_gt_of_ne differs with below | above
  · have before : (other : Rat) + 1 ≤ n := by exact_mod_cast below
    have distance : |y - other| = y - other := abs_of_nonneg (by linarith)
    rcases (show |y - n| ≤ |y - other| by linarith).lt_or_eq with less | same
    · exact Or.inl less
    · -- Both are half a millionth away, so that the other one is next to it, and not below zero.
      have isHalf : y = other + 1 / 2 := by linarith
      have notNegative : (0 : Rat) < other + 1 := by linarith
      have notNegative : 0 ≤ other := by
        have next : 0 < other + 1 := by exact_mod_cast notNegative
        omega
      exact Or.inr ⟨same, by rwa [abs_of_nonneg notNegative]⟩
  · have after : (n : Rat) + 1 ≤ other := by exact_mod_cast above
    have distance : |y - other| = other - y := by
      rw [abs_sub_comm]
      exact abs_of_nonneg (by linarith)
    left
    linarith

theorem IsNearestMillionths.neg {v : Rat} {units : Int} (nearest : IsNearestMillionths v units) :
    IsNearestMillionths (-v) (-units) := by
  have turned (n : Int) : |-v - n / 1000000| = |v - (-n : Int) / 1000000| := by
    rw [← abs_neg]
    push_cast
    ring_nf
  intro other differs
  rw [turned, turned, neg_neg, abs_neg, ← abs_neg other]
  exact nearest (-other) fun same => differs (by rw [← same, neg_neg])

/-- **Six places are rounded correctly**: the text of a finite double has the sign of the double and
the canonical text of the nearest millionth to the number that the double denotes, a tie going away
from zero. -/
theorem sixPlacesText_spec {x : Float} (finite : x.isFinite = true) :
    ∃ v, Binary.Denotes x v ∧ ∃ units, IsNearestMillionths v units ∧
      ∃ digits, sixPlacesText x = (if hasSignBit x then ['-'] else []) ++ digits ∧
        IsCanonical digits ∧ ∃ read, Decimal.ofText? digits = some read ∧
          (if hasSignBit x then -read.toRat else read.toRat) = units / 1000000 := by
  obtain ⟨v, denotes⟩ := Binary.exists_denotes finite
  obtain ⟨sign, isSign, -⟩ := denotes.unpack_cases
  have value := ((Binary.denotes_iff isSign).mp denotes).2
  have nonneg := Binary.magnitude_nonneg (Binary.ofMagnitude false (Binary.magnitudeBits x))
  have nearest := isNearestMillionths_nearestWhole (abs_nonneg v)
  obtain ⟨read, reads, isRead⟩ := Decimal.ofText?_toText ⟨nearestWhole (|v| * 1000000), -6⟩
  have number : read.toRat = (nearestWhole (|v| * 1000000) : Int) / 1000000 := by
    rw [isRead, Decimal.toRat, Int.cast_natCast]
    norm_num
    ring
  cases sign with
  | positive =>
    have same : |v| = v := abs_of_nonneg (value ▸ nonneg)
    refine ⟨v, denotes, _, same ▸ nearest, _, sixPlacesText_eq denotes,
      Decimal.isCanonical_toText _, read, reads, ?_⟩
    rw [if_neg (by simp [isSign]), number, same]
  | negative =>
    have turned : |v| = -v := by
      rw [← value, Binary.signed, neg_neg, abs_neg, abs_of_nonneg nonneg]
    rw [turned] at nearest number
    refine ⟨v, denotes, _, neg_neg v ▸ nearest.neg, _, sixPlacesText_eq denotes,
      Decimal.isCanonical_toText _, read, reads, ?_⟩
    rw [if_pos (isSign.mpr rfl), number, Int.cast_neg, neg_div]

/-- A tie below zero goes down. -/
theorem sixPlacesText_spec_tie :
    (-0.0078125 : Float).isFinite = true ∧ sixPlacesText (-0.0078125) = "-0.007813".toList ∧
      IsNearestMillionths (-1 / 128) (-7813) := by
  have finite : (-0.0078125 : Float).isFinite = true := rfl
  have text : sixPlacesText (-0.0078125) = "-0.007813".toList := by decide +kernel
  have sign : hasSignBit (-0.0078125) = true := rfl
  have tie : Binary.Denotes (-0.0078125) (-1 / 128) :=
    ⟨⟨true, 2 ^ 52, -59⟩, rfl, by norm_num [Binary.toRat, Binary.magnitude]⟩
  obtain ⟨v, denotes, units, nearest, digits, written, -, read, reads, number⟩ :=
    sixPlacesText_spec finite
  refine ⟨finite, text, ?_⟩
  rw [text, sign, if_pos rfl] at written
  obtain rfl : digits = "0.007813".toList := (List.cons.inj written).2.symm
  obtain rfl : read = ⟨7813, -6⟩ := Option.some.inj (reads.symm.trans (by decide))
  have isUnits : (units : Rat) = -7813 := by
    rw [if_pos sign, Decimal.toRat] at number
    norm_num at number
    linarith
  obtain rfl : units = -7813 := by exact_mod_cast isUnits
  exact denotes.unique tie ▸ nearest

end Worksheet
