import Quill.Number.Nearest
import Quill.Number.Numeral

/-!
# Decimal text

The numbers that may stand in color notations: an optional sign, then `inf`, `infinity` or
`nan` in any case, or digits with at most one point and an optional exponent.  Either side of
the point may be empty, but not both.
-/

namespace Quill.Number

def digitsValue (digits : List Char) : Nat :=
  digits.foldl (fun value digit => 10 * value + (digit.toNat - '0'.toNat)) 0

/-- Split off a sign; the flag says whether it is a minus sign. -/
def takeSign (characters : List Char) : Bool × List Char :=
  match characters with
  | '-' :: rest => (true, rest)
  | '+' :: rest => (false, rest)
  | _ => (false, characters)

/-- The double nearest to `coefficient * 10 ^ scale`.  Scales far outside the range of doubles
are settled before any power is computed. -/
def nearestDecimal (negative : Bool) (coefficient : Nat) (scale : Int) : Float :=
  let top := ((decimalDigits coefficient).length : Int) + scale
  if coefficient = 0 ∨ top < -400 then nearest negative 0 1
  else if 400 < top then infinity negative
  else nearest negative (coefficient * tenPow scale.toNat) (tenPow (-scale).toNat)

/-- The exponent at the end of a number; without one it is zero. -/
def exponentAtEnd? : List Char → Option Int
  | [] => some 0
  | mark :: rest =>
    if mark.toLower = 'e' then
      let (negative, digits) := takeSign rest
      if digits.isEmpty ∨ !digits.all Char.isDigit then none
      else
        let size : Int := digitsValue digits
        some (if negative then -size else size)
    else none

def magnitude? (negative : Bool) (characters : List Char) : Option Float :=
  let whole := characters.takeWhile Char.isDigit
  let behindWhole := characters.dropWhile Char.isDigit
  let (fraction, behindFraction) :=
    match behindWhole with
    | '.' :: rest => (rest.takeWhile Char.isDigit, rest.dropWhile Char.isDigit)
    | _ => ([], behindWhole)
  if whole.isEmpty ∧ fraction.isEmpty then none
  else
    (exponentAtEnd? behindFraction).map fun exponent =>
      nearestDecimal negative (digitsValue (whole ++ fraction)) (exponent - fraction.length)

def ofCharacters? (characters : List Char) : Option Float :=
  let (negative, unsigned) := takeSign characters
  let lower := unsigned.map Char.toLower
  if lower = "inf".toList ∨ lower = "infinity".toList then
    some (infinity negative)
  else if lower = "nan".toList then some (0 / 0)
  else magnitude? negative unsigned

end Quill.Number
