import Quill.Number.Binary

/-!
# The double nearest to a quotient

A quotient of natural numbers has one nearest double, a tie going to the even significand.
The exponent is chosen so that the rounded significand has 53 bits, or fewer below the normal
range; since the fields of a bit pattern lie next to each other, a significand that rounds up
to the next power of two carries into the exponent field by plain addition.
-/

namespace Quill.Number

/-- The largest exponent of two whose power is not above a positive quotient. -/
def floorLog2 (numerator denominator : Nat) : Int :=
  let difference := (numerator.log2 : Int) - denominator.log2
  if denominator * twoPow difference.toNat ≤ numerator * twoPow (-difference).toNat then
    difference
  else
    difference - 1

def infinityBits : Nat :=
  2047 * twoPow 52

/-- The bit pattern of the nonnegative double nearest to a quotient. -/
def nearestBits (numerator denominator : Nat) : Nat :=
  if numerator = 0 then 0
  else
    let exponent := max (-1074) (floorLog2 numerator denominator - 52)
    let significand :=
      roundHalfEven (numerator * twoPow (-exponent).toNat)
        (denominator * twoPow exponent.toNat)
    min infinityBits ((exponent + 1074).toNat * twoPow 52 + significand)

/-- The double with a sign and the bit pattern of its magnitude. -/
def ofMagnitude (negative : Bool) (bits : Nat) : Float :=
  Float.ofBits (UInt64.ofNat ((if negative then twoPow 63 else 0) + bits))

def infinity (negative : Bool) : Float :=
  ofMagnitude negative infinityBits

/-- The double nearest to a signed quotient; beyond the largest double it is infinite. -/
def nearest (negative : Bool) (numerator denominator : Nat) : Float :=
  ofMagnitude negative (nearestBits numerator denominator)

def ofInt (value : Int) : Float :=
  nearest (value < 0) value.natAbs 1

/-- The remainder of a division by a positive whole number, with the sign of the dividend; it
is always exact. -/
def remainder (value : Float) (modulus : Nat) : Float :=
  match Reading.of value with
  | .undefined | .infinite _ => 0.0 / 0.0
  | .finite binary =>
    nearest binary.negative
      (binary.numerator % (modulus * binary.denominator)) binary.denominator

end Quill.Number
