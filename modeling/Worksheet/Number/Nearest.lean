/-
**The double nearest to a rational number.**

Reading a decimal and rounding to a whole number both end in a double: the one nearest to an exact
rational number, where a tie goes to the even mantissa and all that lies too far out is infinity.
The exact number is measured by its binary order, cut to a whole number of units in the last place
and packed; a mantissa that rounds up to the next power of two carries into the exponent by
itself.

* `binaryOrder` is the exponent of the largest power of two that does not exceed a positive number;
* `roundHalfEven` is the nearest whole number, ties to even;
* `nearest` is the nearest double to a number that is not negative.
-/

import Worksheet.Number.Binary

namespace Worksheet

/-- The exponent `e` with `2 ^ e ≤ x < 2 ^ (e + 1)`, for a positive `x`. -/
def binaryOrder (x : Rat) : Int :=
  let estimate : Int := (x.num.toNat.log2 : Int) - (x.den.log2 : Int)
  if x < (2 : Rat) ^ estimate then estimate - 1 else estimate

/-- The nearest whole number to a number that is not negative; a half goes to the even one. -/
def roundHalfEven (x : Rat) : Nat :=
  let below := x.floor.toNat
  let excess := x - (below : Rat)
  if excess < 1 / 2 then below
  else if 1 / 2 < excess then below + 1
  else below + below % 2

/-- The exponent of the last place of the doubles near a number that is not negative. -/
def lastPlace (x : Rat) : Int :=
  if x ≤ 0 then Binary.leastExponent else max (binaryOrder x - 52) Binary.leastExponent

/-- The bit pattern of `mantissa` units of a last place: every step of the last place is one step
of the exponent field, and the hidden bit of the mantissa is a further one. -/
def packedBits (place : Int) (mantissa : Nat) : Nat :=
  min ((place - Binary.leastExponent).toNat * Binary.hiddenBit + mantissa) Binary.infinityBits

/-- The double nearest to a number that is not negative, ties to the even mantissa. -/
def nearest (x : Rat) : Float :=
  let place := lastPlace x
  Float.ofBits (UInt64.ofNat (packedBits place (roundHalfEven (x / (2 : Rat) ^ place))))

/-! ### Values -/

example : (nearest (1 / 10)).toBits = 0x3FB999999999999A := by decide +kernel

example : (nearest 9007199254740993).toBits = 0x4340000000000000 := by decide +kernel

example : (nearest ((10 : Rat) ^ (309 : Int))).toBits = 0x7FF0000000000000 := by decide +kernel

example : (nearest ((3 : Rat) * (2 : Rat) ^ (-1075 : Int))).toBits = 2 := by decide +kernel

end Worksheet
