/-!
# Binary floating point

Numbers in the 64-bit binary format: a sign, eleven bits of exponent and 52 of fraction.  Every
finite magnitude is a whole number of units of 2^-1074, so exact arithmetic on magnitudes is
arithmetic on natural numbers, and a result is brought back by rounding to the nearest number of the
format, ties to the even one.
-/

namespace Postbox

/-- A number in the 64-bit binary format. -/
structure Binary64 where
  bits : UInt64
deriving DecidableEq, Repr

namespace Binary64

/-- The number of bits of fraction. -/
def fractionWidth : Nat := 52

/-- The power of two that one is, in units. -/
def scale : Nat := 1074

/-- The bits of a magnitude. -/
def magnitudeBits (x : Binary64) : Nat :=
  x.bits.toNat % Nat.pow 2 63

/-- The bits of an infinite magnitude.  Smaller ones are finite, greater ones no numbers. -/
def infiniteBits : Nat := 0x7FF * Nat.pow 2 fractionWidth

/-- The sign bit is set. -/
def isNegative (x : Binary64) : Bool :=
  Nat.pow 2 63 ≤ x.bits.toNat

/-- The number is neither infinite nor undefined. -/
def isFinite (x : Binary64) : Bool :=
  x.magnitudeBits < infiniteBits

/-- The value is undefined. -/
def isUndefined (x : Binary64) : Bool :=
  infiniteBits < x.magnitudeBits

/-- The number whose magnitude has the given bits. -/
def ofMagnitude (negative : Bool) (bits : Nat) : Binary64 :=
  ⟨UInt64.ofNat (if negative then Nat.pow 2 63 + bits else bits)⟩

/-- An undefined value. -/
def undefined : Binary64 := ⟨0x7FF8000000000000⟩

/-- Infinity with a sign. -/
def infinity (negative : Bool) : Binary64 :=
  ofMagnitude negative infiniteBits

/-- One. -/
def one : Binary64 := ⟨0x3FF0000000000000⟩

/-- How many times the gap between neighbours has doubled at a magnitude. -/
def doublings (x : Binary64) : Nat :=
  x.magnitudeBits / Nat.pow 2 fractionWidth - 1

/-- A magnitude in units; for infinity, the first value out of range. -/
def units (x : Binary64) : Nat :=
  (x.magnitudeBits - x.doublings * Nat.pow 2 fractionWidth) * Nat.pow 2 x.doublings

/-- A quotient rounded to the nearest whole number, ties to the even one. -/
def roundDiv (num den : Nat) : Nat :=
  if 2 * (num % den) < den then num / den
  else if den < 2 * (num % den) then num / den + 1
  else num / den + num / den % 2

/-- The bits of the magnitude nearest to `num / den` units, ties to the even one.  What lies beyond
the greatest finite magnitude by half a gap or more is infinite. -/
def nearestBits (num den : Nat) : Nat :=
  let doublings := (num / den).log2 - fractionWidth
  min (roundDiv num (den * Nat.pow 2 doublings) + doublings * Nat.pow 2 fractionWidth) infiniteBits

/-- The number nearest to `num / den` units. -/
def nearest (negative : Bool) (num den : Nat) : Binary64 :=
  ofMagnitude negative (nearestBits num den)

/-- The number nearest to a natural number. -/
def ofNat (n : Nat) : Binary64 :=
  nearest false (n * Nat.pow 2 scale) 1

/-- The number nearest to an integer. -/
def ofInt (n : Int) : Binary64 :=
  nearest (decide (n < 0)) (n.natAbs * Nat.pow 2 scale) 1

/-- The product of two finite magnitudes, rounded. -/
def product (x y : Binary64) : Binary64 :=
  nearest false (x.units * y.units) (Nat.pow 2 scale)

/-- A magnitude rounded to a whole number, halves up. -/
def roundUnits (x : Binary64) : Nat :=
  (x.units + Nat.pow 2 (scale - 1)) / Nat.pow 2 scale

/-- The number is finite and at least one. -/
def isGrowth (x : Binary64) : Bool :=
  x.isFinite && !x.isNegative && one.magnitudeBits ≤ x.magnitudeBits

example : units one = Nat.pow 2 scale := by decide +kernel
example : ofNat 1 = one := by decide +kernel
example : (ofNat (Nat.pow 2 53 + 1)).roundUnits = Nat.pow 2 53 := by decide +kernel

end Binary64

end Postbox
