/-!
# Base64

Bytes are written as the standard alphabet's characters, three bytes to four characters, with
`=` filling up the last group; the text is then cut into lines of one width.
-/

namespace Quill.Text.Base64

def symbol (value : Nat) : Char :=
  if value < 26 then Char.ofNat ('A'.toNat + value)
  else if value < 52 then Char.ofNat ('a'.toNat + (value - 26))
  else if value < 62 then Char.ofNat ('0'.toNat + (value - 52))
  else if value = 62 then '+'
  else '/'

def value? (character : Char) : Option Nat :=
  if 'A' ≤ character ∧ character ≤ 'Z' then some (character.toNat - 'A'.toNat)
  else if 'a' ≤ character ∧ character ≤ 'z' then some (character.toNat - 'a'.toNat + 26)
  else if '0' ≤ character ∧ character ≤ '9' then some (character.toNat - '0'.toNat + 52)
  else if character = '+' then some 62
  else if character = '/' then some 63
  else none

/-- Encode bytes with padding. -/
def encode : List UInt8 → List Char
  | [] => []
  | [first] =>
    let bits := first.toNat * 16
    [symbol (bits / 64), symbol (bits % 64), '=', '=']
  | [first, second] =>
    let bits := (first.toNat * 256 + second.toNat) * 4
    [symbol (bits / 4096), symbol (bits / 64 % 64), symbol (bits % 64), '=']
  | first :: second :: third :: rest =>
    let bits := (first.toNat * 256 + second.toNat) * 256 + third.toNat
    symbol (bits / 262144) :: symbol (bits / 4096 % 64) :: symbol (bits / 64 % 64) ::
      symbol (bits % 64) :: encode rest

/-- Decode padded text; the unused bits of a padded group have to be zero. -/
def decode : List Char → Option (List UInt8)
  | [] => some []
  | [a, b, '=', '='] => do
    let bits := (← value? a) * 64 + (← value? b)
    if bits % 16 = 0 then some [UInt8.ofNat (bits / 16)] else none
  | [a, b, c, '='] => do
    let bits := ((← value? a) * 64 + (← value? b)) * 64 + (← value? c)
    if bits % 4 = 0 then
      some [UInt8.ofNat (bits / 1024), UInt8.ofNat (bits / 4 % 256)]
    else none
  | a :: b :: c :: d :: rest => do
    let bits := (((← value? a) * 64 + (← value? b)) * 64 + (← value? c)) * 64 +
      (← value? d)
    let bytes ← decode rest
    some (UInt8.ofNat (bits / 65536) :: UInt8.ofNat (bits / 256 % 256) ::
      UInt8.ofNat (bits % 256) :: bytes)
  | _ => none

/-- Cut a list into runs of `width + 1`; only the last one may be shorter. -/
def runs (width : Nat) (items : List α) : List (List α) :=
  match items with
  | [] => []
  | first :: rest => (first :: rest.take width) :: runs width (rest.drop width)
termination_by items.length
decreasing_by simp only [List.length_drop, List.length_cons]; omega

/-- The lines of the encoded bytes; a width of zero acts as one. -/
def lines (bytes : List UInt8) (width : Nat) : List String :=
  (runs (width - 1) (encode bytes)).map String.ofList

end Quill.Text.Base64
