/-
**What a double stands for.**

A finite double is a sign and an exact dyadic number: a whole mantissa times a power of two. All
that the library prints, rounds or compares exactly starts from this decoding of the bit pattern.

* `Binary.ofFloat?` decodes a double, and has no answer for infinities and for NaN;
* `Binary.toRat` is the number it stands for;
* `Float.isNegative` is the sign bit, which is set for `-0` too.
-/

namespace Worksheet

/-- A finite double: its sign bit, and its magnitude `mantissa * 2 ^ exponent`. -/
structure Binary where
  /-- The sign bit, set also for a negative zero. -/
  negative : Bool
  /-- The whole number of units in the last place. -/
  mantissa : Nat
  /-- The power of two that one unit in the last place stands for. -/
  exponent : Int
deriving DecidableEq

namespace Binary

/-- The distance of two neighbouring bit patterns with different exponents: `2 ^ 52`. -/
def hiddenBit : Nat := 0x10000000000000

/-- The bit pattern of positive infinity, above which there are only patterns of NaN. -/
def infinityBits : Nat := 0x7FF0000000000000

/-- The bit pattern that holds the sign alone. -/
def signBit : Nat := 0x8000000000000000

/-- The exponent of the smallest positive double. -/
def leastExponent : Int := -1074

/-- Decodes a bit pattern below that of infinity into a mantissa and an exponent: a pattern whose
exponent field is zero has no hidden bit, and the exponent of field one. -/
def ofMagnitude (negative : Bool) (bits : Nat) : Binary :=
  let field := bits / hiddenBit
  let fraction := bits % hiddenBit
  if field = 0 then
    { negative, mantissa := fraction, exponent := leastExponent }
  else
    { negative, mantissa := hiddenBit + fraction, exponent := leastExponent + (field - 1 : Nat) }

/-- The exact content of a double, unless it is an infinity or not a number. -/
def ofFloat? (x : Float) : Option Binary :=
  let bits := x.toBits.toNat
  let magnitude := bits % signBit
  if magnitude < infinityBits then
    some (ofMagnitude (decide (signBit ≤ bits)) magnitude)
  else
    none

/-- The magnitude as a rational number. -/
def magnitude (b : Binary) : Rat :=
  (b.mantissa : Rat) * (2 : Rat) ^ b.exponent

/-- The number that the double stands for; both zeros stand for zero. -/
def toRat (b : Binary) : Rat :=
  if b.negative then -b.magnitude else b.magnitude

end Binary

/-- The sign bit of a double. -/
def hasSignBit (x : Float) : Bool :=
  decide (Binary.signBit ≤ x.toBits.toNat)

/-! ### Values -/

example : Binary.ofFloat? 2.5 = some ⟨false, 5 * 0x4000000000000, -51⟩ := by decide +kernel

example : Binary.ofFloat? (-0.0) = some ⟨true, 0, -1074⟩ := by decide +kernel

example : Binary.ofFloat? (1 / 0) = none := by decide +kernel

end Worksheet
