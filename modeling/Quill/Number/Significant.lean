import Quill.Number.Numeral

/-!
# Significant digits

Coordinates, sizes and coefficients are written with a fixed count of significant digits: the
exact value is rounded to that many digits, a half to the even digit, and trailing zeros of
the fraction are left out.  The exponent of the rounded value decides the notation, which is
scientific or positional, and for the latter the exact value is rounded anew.
-/

namespace Quill.Number

/-- Round a positive quotient to a count of significant digits.  The result is the digits as
one number and the exponent of the first digit. -/
def roundSignificant (count numerator denominator : Nat) : Nat × Int :=
  let exponent := leadingExponent numerator denominator
  let shift := (count : Int) - 1 - exponent
  let digits :=
    roundHalfEven (numerator * tenPow shift.toNat) (denominator * tenPow (-shift).toNat)
  if digits = tenPow count then (tenPow (count - 1), exponent + 1) else (digits, exponent)

/-- The last digits of a number, with zeros in front where it has fewer. -/
def lastDigits : Nat → Nat → List Char
  | 0, _ => []
  | count + 1, number => lastDigits count (number / 10) ++ [Nat.digitChar (number % 10)]

/-- Round a quotient to a count of decimals.  The result is the digits before and behind the
point. -/
def roundDecimals (count numerator denominator : Nat) : List Char × List Char :=
  let rounded := roundHalfEven (numerator * tenPow count) denominator
  (decimalDigits (rounded / tenPow count), lastDigits count rounded)

/-- Write an exponent with its sign and at least two digits. -/
def signedExponent (exponent : Int) : List Char :=
  let digits := decimalDigits exponent.natAbs
  let padded := if digits.length < 2 then '0' :: digits else digits
  'e' :: (if exponent < 0 then '-' else '+') :: padded

/-- Lay out digits with a point behind the first one and with an exponent. -/
def Numeral.scientific (numeral : Numeral) : List Char :=
  joinPoint (numeral.digits.take 1) (dropTrailingZeros (numeral.digits.drop 1)) ++
    signedExponent numeral.exponent

/-- The characters of a positive quotient rounded to a count of significant digits.  In positional
notation, for exponents from `-4` up to the count, the quotient is rounded once more, to as many
decimals as the exponent leaves. -/
def generalQuotient (count numerator denominator : Nat) : List Char :=
  let (digits, exponent) := roundSignificant count numerator denominator
  if exponent < -4 ∨ (count : Int) ≤ exponent then
    Numeral.scientific ⟨decimalDigits digits, exponent⟩
  else
    let (whole, fraction) :=
      roundDecimals ((count : Int) - 1 - exponent).toNat numerator denominator
    joinPoint whole (dropTrailingZeros fraction)

/-- The characters of a finite double rounded to significant digits. -/
def Binary.general (count : Nat) (value : Binary) : List Char :=
  let sign := if value.negative then ['-'] else []
  if value.significand = 0 then sign ++ ['0']
  else sign ++ generalQuotient count value.numerator value.denominator

/-- Write a double with a count of significant digits; a count of zero acts as one. -/
def significant (count : Nat) (value : Float) : String :=
  match Reading.of value with
  | .undefined => "nan"
  | .infinite negative => if negative then "-inf" else "inf"
  | .finite binary => String.ofList (binary.general (max 1 count))

/-- Write a coordinate, size, angle or opacity: four significant digits. -/
def coordinate (value : Float) : String :=
  significant 4 value

/-- Write a matrix coefficient: six significant digits. -/
def coefficient (value : Float) : String :=
  significant 6 value

def coordinatePair (x y : Float) : String :=
  coordinate x ++ "," ++ coordinate y

end Quill.Number
