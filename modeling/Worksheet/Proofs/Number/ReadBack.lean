/-
**The text of a double reads back.**

The shortest decimal of a double is searched among decimals that read back as it, and where none is
found the exact value is taken, which reads back too. So whichever decimal it is, the text of a
finite number is a numeral that is read as its magnitude, with a sign in front of it for a number
below zero; the text of both zeros is `0`.

* `toFloat_shortest`: the shortest decimal of a double reads back as its magnitude;
* `Numeral.ofMagnitude` is the numeral in the text of a number;
* `Value.toText_number`: the text of a number, and `Numeral.neg_value_ofMagnitude` and
  `Numeral.value_ofMagnitude_of_nonneg`: the number that it stands for.
-/

import Worksheet.Proofs.Number.Bits
import Worksheet.Proofs.Number.DecimalText
import Worksheet.Proofs.Number.Nearest
import Worksheet.Value

namespace Worksheet

/-! ### The shortest decimal -/

namespace Shortest

/-- The exact value as a decimal is the magnitude. -/
theorem toRat_exactDecimal (b : Binary) : (exactDecimal b).toRat = b.magnitude := by
  have two : (2 : Rat) ≠ 0 := by norm_num
  have split : b.exponent = (b.exponent.toNat : Int) + -((-b.exponent).toNat : Int) := by omega
  have ten : (10 : Rat) = 2 * 5 := by norm_num
  unfold exactDecimal Decimal.toRat Binary.magnitude
  dsimp only
  conv_rhs => rw [split, zpow_add₀ two]
  rw [ten, mul_zpow, zpow_neg, zpow_neg, zpow_natCast, zpow_natCast, zpow_natCast]
  push_cast [Nat.pow_eq]
  field_simp

/-- What a grid offers reads back. -/
theorem readsBack_of_onGrid? {x : Float} {exact : Rat} {place : Int} {d : Decimal}
    (found : onGrid? x exact place = some d) : readsBack d x = true := by
  -- The definition is opened as a function: opened at its arguments, it would make the kernel run
  -- the two tests.
  have definition : onGrid? = onGrid? := rfl
  conv at definition => rhs; delta onGrid?
  rw [definition] at found
  dsimp only at found
  generalize (exact / (10 : Rat) ^ place).floor.toNat = below at found
  generalize lowReads : readsBack ⟨below, place⟩ x = low at found
  generalize highReads : readsBack ⟨below + 1, place⟩ x = high at found
  match low, high with
  | true, true =>
    rw [← Option.some.inj found]
    split
    · exact lowReads
    · exact highReads
  | true, false =>
    rw [← Option.some.inj found]
    exact lowReads
  | false, true =>
    rw [← Option.some.inj found]
    exact highReads
  | false, false => cases found

/-- The decimal chosen for a positive double reads back as it. -/
theorem toFloat_ofBinary (b : Binary) :
    (ofBinary (nearest b.magnitude) b).toFloat = nearest b.magnitude := by
  unfold ofBinary
  dsimp only
  cases found : (List.range 17).findSome? fun n =>
      onGrid? (nearest b.magnitude) b.magnitude (decimalOrder b.magnitude - (n + 1 : Nat)) with
  | none =>
    show nearest (exactDecimal b).toRat = nearest b.magnitude
    rw [toRat_exactDecimal]
  | some d =>
    obtain ⟨n, _, onGrid⟩ := List.exists_of_findSome?_eq_some found
    exact Float.toBits_inj.mp (eq_of_beq (readsBack_of_onGrid? onGrid))

end Shortest

/-- **The shortest decimal of a double reads back as its magnitude.** -/
theorem toFloat_shortest (b : Binary) : (shortest b).toFloat = nearest b.magnitude := by
  unfold shortest
  split
  next isZero =>
    unfold Binary.magnitude Decimal.toFloat Decimal.toRat
    rw [isZero]
    simp
  next => exact Shortest.toFloat_ofBinary b

/-! ### Its numeral -/

namespace Numeral

/-- The text of a decimal, as a numeral. -/
def ofDecimal (d : Decimal) : Numeral where
  digits := d.toText
  good := by
    obtain ⟨back, read, _⟩ := d.ofText?_toText
    exact (Decimal.isSome_ofText?_iff _).mp (by rw [read]; rfl)

theorem value_ofDecimal (d : Decimal) : (ofDecimal d).value = d.toFloat := by
  obtain ⟨back, read, same⟩ := d.ofText?_toText
  have decimal : (ofDecimal d).decimal = back :=
    Option.some.inj ((ofText?_digits (ofDecimal d)).symm.trans read)
  unfold value Decimal.toFloat
  rw [decimal, same]

/-- The shortest numeral of the magnitude of a finite double. -/
def ofMagnitude (x : Float) : Numeral :=
  ofDecimal (shortest (Binary.ofMagnitude (hasSignBit x) (Binary.magnitudeBits x)))

variable {x : Float}

/-- The numeral of a magnitude is read as the magnitude. -/
theorem value_ofMagnitude (finite : x.isFinite = true) :
    (ofMagnitude x).value = Float.ofBits (UInt64.ofNat (Binary.magnitudeBits x)) := by
  unfold ofMagnitude
  rw [value_ofDecimal, toFloat_shortest,
    Binary.nearest_magnitude _ ((Binary.isFinite_iff x).mp finite)]

/-- The numeral of a negative number stands for its negation. -/
theorem neg_value_ofMagnitude (finite : x.isFinite = true) (negative : x < 0) :
    -(ofMagnitude x).value = x := by
  rw [value_ofMagnitude finite]
  exact Binary.neg_ofBits_magnitudeBits finite ((Binary.lt_zero_iff finite).mp negative).1

/-- The numeral of any other number stands for the number itself, with no sign at a zero. -/
theorem value_ofMagnitude_of_nonneg (finite : x.isFinite = true) (nonnegative : ¬ x < 0) :
    (ofMagnitude x).value = if x == 0 then 0 else x := by
  rw [value_ofMagnitude finite]
  split
  next zero =>
    rw [(Binary.beq_zero_iff finite).mp zero]
    rfl
  next nonzero =>
    refine Binary.ofBits_magnitudeBits finite ?_
    rw [← Bool.not_eq_true]
    intro set
    refine nonnegative ((Binary.lt_zero_iff finite).mpr ⟨set, fun none => nonzero ?_⟩)
    exact (Binary.beq_zero_iff finite).mpr none

end Numeral

/-! ### The text of a number -/

/-- The text of a finite double is the numeral of its magnitude, with its sign in front. -/
theorem shortestText_eq {x : Float} (finite : x.isFinite = true) :
    shortestText x = (if hasSignBit x then ['-'] else []) ++ (Numeral.ofMagnitude x).digits := by
  have decoded : Binary.ofFloat? x =
      some (Binary.ofMagnitude (hasSignBit x) (Binary.magnitudeBits x)) :=
    if_pos ((Binary.isFinite_iff x).mp finite)
  unfold shortestText
  rw [decoded]
  dsimp only
  rw [Binary.negative_ofMagnitude]
  rfl

namespace Value

/-- **The text of a finite number** is the numeral of its magnitude, with a sign in front of those
below zero. -/
theorem toText_number {x : Float} (finite : x.isFinite = true) :
    (number x).toText = (if x < 0 then ['-'] else []) ++ (Numeral.ofMagnitude x).digits := by
  have below := Binary.lt_zero_iff finite
  show (if (x == 0) = true then ['0'] else shortestText x) = _
  by_cases zero : (x == 0) = true
  · have bits := (Binary.beq_zero_iff finite).mp zero
    rw [if_pos zero, if_neg (fun less => (below.mp less).2 bits)]
    unfold Numeral.ofMagnitude
    rw [bits]
    cases hasSignBit x <;> decide
  · have bits : Binary.magnitudeBits x ≠ 0 := fun none =>
      zero ((Binary.beq_zero_iff finite).mpr none)
    rw [and_iff_left bits] at below
    rw [if_neg zero, if_congr below rfl rfl, shortestText_eq finite]

end Value

end Worksheet
