/-!
# Hexadecimal digits

The values of hexadecimal digits, which are read in either case and written in one.
-/

namespace Quill.Number

def hexValue? (digit : Char) : Option Nat :=
  if '0' ≤ digit ∧ digit ≤ '9' then some (digit.toNat - '0'.toNat)
  else if 'a' ≤ digit ∧ digit ≤ 'f' then some (digit.toNat - 'a'.toNat + 10)
  else if 'A' ≤ digit ∧ digit ≤ 'F' then some (digit.toNat - 'A'.toNat + 10)
  else none

/-- The digit of a value below sixteen, with letters from a given one on. -/
def hexDigitFrom (letter : Char) (value : Nat) : Char :=
  if value < 10 then Char.ofNat ('0'.toNat + value)
  else Char.ofNat (letter.toNat + (value - 10))

def lowerHexDigit (value : Nat) : Char :=
  hexDigitFrom 'a' value

def upperHexDigit (value : Nat) : Char :=
  hexDigitFrom 'A' value

end Quill.Number
