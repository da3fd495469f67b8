/-!
# Doubles as exact numbers

A finite double is a sign and a magnitude `significand * 2 ^ exponent`.  This file reads
that form off the bits, and states rounding of quotients of natural numbers and of doubles
to integers without leaving exact arithmetic, so that no later text or count depends on an
inexact intermediate value.
-/

namespace Quill.Number

def twoPow (exponent : Nat) : Nat :=
  Nat.pow 2 exponent

def tenPow (exponent : Nat) : Nat :=
  Nat.pow 10 exponent

/-- A finite double: its sign, and its magnitude `significand * 2 ^ exponent`. -/
structure Binary where
  negative : Bool
  significand : Nat
  exponent : Int
  deriving DecidableEq, Repr

/-- What a double stands for. -/
inductive Reading where
  | undefined
  | infinite (negative : Bool)
  | finite (value : Binary)
  deriving DecidableEq, Repr

/-- Read the sign, the exponent field and the fraction field of a 64-bit pattern. -/
def Reading.ofBits (bits : Nat) : Reading :=
  let negative := bits / twoPow 63 % 2 == 1
  let field : Nat := bits / twoPow 52 % twoPow 11
  let fraction : Nat := bits % twoPow 52
  if field = 2047 then
    if fraction = 0 then .infinite negative else .undefined
  else if field = 0 then
    .finite ⟨negative, fraction, -1074⟩
  else
    .finite ⟨negative, twoPow 52 + fraction, (field : Int) - 1075⟩

def Reading.of (value : Float) : Reading :=
  .ofBits value.toBits.toNat

namespace Binary

def numerator (value : Binary) : Nat :=
  value.significand * twoPow value.exponent.toNat

/-- Denominator of the magnitude, a power of two. -/
def denominator (value : Binary) : Nat :=
  twoPow (-value.exponent).toNat

end Binary

/-- Round a quotient to the nearest natural number, a half to the even neighbour. -/
def roundHalfEven (numerator denominator : Nat) : Nat :=
  let quotient := numerator / denominator
  let twice := 2 * (numerator % denominator)
  if twice < denominator then quotient
  else if denominator < twice then quotient + 1
  else quotient + quotient % 2

/-- Round a quotient to the nearest natural number, a half to the larger neighbour. -/
def roundHalfUp (numerator denominator : Nat) : Nat :=
  (2 * numerator + denominator) / (2 * denominator)

namespace Binary

def floor (value : Binary) : Int :=
  if value.negative then
    -(((value.numerator + value.denominator - 1) / value.denominator : Nat) : Int)
  else
    ((value.numerator / value.denominator : Nat) : Int)

def ceil (value : Binary) : Int :=
  if value.negative then
    -((value.numerator / value.denominator : Nat) : Int)
  else
    (((value.numerator + value.denominator - 1) / value.denominator : Nat) : Int)

end Binary

/-- Round into a range: what is undefined counts as zero, and what lies outside goes to the
nearer end. -/
def Reading.within (low high : Int) (round : Binary → Int) : Reading → Int
  | .undefined => 0
  | .infinite negative => if negative then low else high
  | .finite value => max low (min high (round value))

end Quill.Number
