import Quill.Number.Binary

/-!
# Decimal numerals

A numeral is a run of decimal digits read with a point behind the first one, times a power of
ten.  Both printers of numbers lay digits out in positional notation or with an exponent; this
file holds what they share.
-/

namespace Quill.Number

/-- Decimal digits `d.ddd…` times `10 ^ exponent`. -/
structure Numeral where
  digits : List Char
  exponent : Int
  deriving DecidableEq, Repr

def decimalDigits (number : Nat) : List Char :=
  Nat.toDigits 10 number

/-- The exponent of the leading decimal digit of a positive quotient: the largest one whose
power of ten is not above the quotient. -/
def leadingExponent (numerator denominator : Nat) : Int :=
  if denominator ≤ numerator then
    ((decimalDigits (numerator / denominator)).length : Int) - 1
  else
    -((decimalDigits ((denominator - 1) / numerator)).length : Int)

namespace Numeral

/-- The digits before and behind the point in positional notation. -/
def positional (numeral : Numeral) : List Char × List Char :=
  if numeral.exponent < 0 then
    (['0'], List.replicate ((-numeral.exponent).toNat - 1) '0' ++ numeral.digits)
  else
    let count := numeral.exponent.toNat + 1
    (numeral.digits.take count ++ List.replicate (count - numeral.digits.length) '0',
      numeral.digits.drop count)

end Numeral

def dropTrailingZeros (digits : List Char) : List Char :=
  (digits.reverse.dropWhile (· == '0')).reverse

/-- Join digits before and behind a point; without a fraction there is no point. -/
def joinPoint (whole fraction : List Char) : List Char :=
  if fraction.isEmpty then whole else whole ++ '.' :: fraction

end Quill.Number
