import Quill.Json.Value
import Quill.Number.Decimal

/-!
# Number literals

A number literal is an optional minus sign, a whole part without needless zeros, an optional
fraction and an optional exponent.  It stands for an integer if it has neither fraction nor
exponent and fits a machine word, and otherwise for the nearest double.
-/

namespace Quill.Json

/-- Split off the leading digits, of which there has to be at least one. -/
def takeDigits? (characters : List Char) : Option (List Char × List Char) :=
  let digits := characters.takeWhile Char.isDigit
  if digits.isEmpty then none else some (digits, characters.dropWhile Char.isDigit)

structure Literal where
  negative : Bool
  whole : List Char
  fraction : Option (List Char)
  exponent : Option Int
  deriving DecidableEq, Repr

namespace Literal

/-- Read the fraction behind a whole part, if there is one. -/
def takeFraction? : List Char → Option (Option (List Char) × List Char)
  | '.' :: rest => (takeDigits? rest).map fun (digits, after) => (some digits, after)
  | characters => some (none, characters)

/-- Read the exponent at the end of a number, if there is one. -/
def exponentOf? : List Char → Option (Option Int)
  | [] => some none
  | mark :: rest =>
    if mark = 'e' ∨ mark = 'E' then
      let (negative, digits) := Number.takeSign rest
      match takeDigits? digits with
      | some (digits, []) =>
        let size : Int := Number.digitsValue digits
        some (some (if negative then -size else size))
      | _ => none
    else none

def ofCharacters? (characters : List Char) : Option Literal := do
  let (negative, unsigned) :=
    match characters with
    | '-' :: rest => (true, rest)
    | _ => (false, characters)
  let (whole, behindWhole) ← takeDigits? unsigned
  if 1 < whole.length ∧ whole.head? = some '0' then none
  let (fraction, behindFraction) ← takeFraction? behindWhole
  let exponent ← exponentOf? behindFraction
  return ⟨negative, whole, fraction, exponent⟩

/-- The nearest double, or nothing if the number is beyond every double. -/
def double? (literal : Literal) : Option Float :=
  let fraction := literal.fraction.getD []
  let value :=
    Number.nearestDecimal literal.negative (Number.digitsValue (literal.whole ++ fraction))
      (literal.exponent.getD 0 - fraction.length)
  if value.isInf then none else some value

/-- The integer that a literal without fraction and exponent stands for.  A negative zero is
not an integer. -/
def integer? (literal : Literal) : Option Int :=
  match literal.fraction, literal.exponent with
  | none, none =>
    let size : Int := Number.digitsValue literal.whole
    let number := if literal.negative then -size else size
    if fitsWord number ∧ ¬(literal.negative ∧ size = 0) then some number else none
  | _, _ => none

def value (literal : Literal) : Value :=
  match literal.integer? with
  | some number => .integer number
  | none =>
    match literal.double? with
    | some double => .real double
    | none => .unreadable

end Literal

end Quill.Json
