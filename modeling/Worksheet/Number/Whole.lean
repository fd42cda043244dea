/-
**Rounding a double to a whole number.**

Floor and ceiling are exact on every finite double: the fraction is cut off the mantissa, and one
is added to the magnitude when the direction leads away from zero. The sign is kept, so the
ceiling of `-0.5` is `-0`. Infinities and NaN are their own floor and ceiling. Rounding to the
nearest whole number is built on the floor, with halves going up.

* `floor`, `ceiling` and `roundHalfUp` work on doubles;
* `fraction` is what is left behind the whole part of a double.
-/

import Worksheet.Number.Nearest

namespace Worksheet

namespace Binary

/-- The number of units in the last place that make up one. -/
def unitsInOne (b : Binary) : Nat :=
  Nat.pow 2 (-b.exponent).toNat

/-- The magnitude without its fraction, for a double with places after the point. -/
def wholePart (b : Binary) : Nat :=
  b.mantissa / b.unitsInOne

/-- Whether there is a fraction, for a double with places after the point. -/
def hasFraction (b : Binary) : Bool :=
  b.mantissa % b.unitsInOne != 0

/-- The whole magnitude next to the double, away from zero or towards zero. -/
def wholeMagnitude (b : Binary) (away : Bool) : Nat :=
  if away && b.hasFraction then b.wholePart + 1 else b.wholePart

end Binary

/-- A double with the given sign and the whole magnitude nearest to `magnitude`. -/
def signedWhole (negative : Bool) (magnitude : Nat) : Float :=
  if negative then -nearest magnitude else nearest magnitude

/-- Rounds a double to a whole number next to it, away from zero for one of the two signs. -/
def roundAwayFor (x : Float) (awayFor : Bool) : Float :=
  match Binary.ofFloat? x with
  | none => x
  | some b =>
    if 0 ≤ b.exponent then x
    else signedWhole b.negative (b.wholeMagnitude (b.negative == awayFor))

/-- The largest whole number that is not above the double. -/
def floor (x : Float) : Float :=
  roundAwayFor x true

/-- The smallest whole number that is not below the double. -/
def ceiling (x : Float) : Float :=
  roundAwayFor x false

/-- The nearest whole number; halves go up. -/
def roundHalfUp (x : Float) : Float :=
  let below := floor x
  if 0.5 ≤ x - below then below + 1.0 else below

/-- The double without its fraction, which is the next whole number towards zero. -/
def truncate (x : Float) : Float :=
  if hasSignBit x then ceiling x else floor x

/-- The fraction of a double, with the sign of the double; infinities have none. -/
def fraction (x : Float) : Float :=
  x - truncate x

/-! ### Values -/

example : (floor (-2.5)).toBits = (-3.0 : Float).toBits := by decide +kernel

example : (ceiling (-0.5)).toBits = (-0.0 : Float).toBits := by decide +kernel

example : (roundHalfUp (-2.5)).toBits = (-2.0 : Float).toBits := by decide +kernel

example : (roundHalfUp 0.49999999999999994).toBits = (0.0 : Float).toBits := by decide +kernel

example : (fraction (-2.75)).toBits = (-0.75 : Float).toBits := by decide +kernel

end Worksheet
