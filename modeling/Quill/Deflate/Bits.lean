import Quill.Deflate.Fault

/-!
# Bits of bytes

Compressed data is a sequence of bits, of which a byte holds eight, the least significant
first.  Numbers are written in the same order and codewords in the opposite one.
-/

namespace Quill.Deflate

/-- The lowest bits of a number, least significant first. -/
def bitsOfNumber (count number : Nat) : List Bool :=
  (List.range count).map number.testBit

/-- The number of some bits, least significant first. -/
def numberOfBits : List Bool → Nat
  | [] => 0
  | bit :: rest => bit.toNat + 2 * numberOfBits rest

def bitsOfBytes (bytes : List UInt8) : List Bool :=
  bytes.flatMap fun byte => bitsOfNumber 8 byte.toNat

/-- The bytes of bits, the last of which is filled up with zeros. -/
def bytesOfBits (bits : List Bool) : List UInt8 :=
  match bits with
  | [] => []
  | first :: rest =>
    UInt8.ofNat (numberOfBits (first :: rest.take 7)) :: bytesOfBits (rest.drop 7)
termination_by bits.length
decreasing_by simp only [List.length_drop, List.length_cons]; omega

/-- Why reading stops before the end of the data: bits are wanted that have not come yet, there
is no room for more bytes, or something is wrong. -/
inductive Stop where
  | wanting
  | full
  | faulty (fault : Fault)
  deriving DecidableEq, Repr

/-- Reading from the front of some bits. -/
abbrev BitReader := StateT (List Bool) (Except Stop)

/-- Go on only if so many bits are there. -/
def await (count : Nat) : BitReader Unit := do
  if ((← get).take count).length < count then throw .wanting

def readNumber (count : Nat) : BitReader Nat := do
  await count
  modifyGet fun bits => (numberOfBits (bits.take count), bits.drop count)

/-- Go on at the next whole byte.  All the bits end with one. -/
def skipToByte : BitReader Unit :=
  modify fun bits => bits.drop (bits.length % 8)

end Quill.Deflate
