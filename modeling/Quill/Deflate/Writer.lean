import Quill.Deflate.Reader

/-!
# Writing compressed data

Rows of bytes are written in one of two ways.  A stored stream keeps them as they are.  A
sparse stream is meant for rows that are mostly zeros: it has one block with a code fixed in
advance, in which small numbers have short words, and it copies nothing but zeros.  Both end
in a checksum of the rows.
-/

namespace Quill.Deflate

/-- The two bytes of a number, least significant first. -/
def halfWord (number : Nat) : List UInt8 :=
  [UInt8.ofNat number, UInt8.ofNat (number / 0x100)]

/-- The four bytes of a number, most significant first. -/
def word (number : Nat) : List UInt8 :=
  [UInt8.ofNat (number / 0x1000000), UInt8.ofNat (number / 0x10000), UInt8.ofNat (number / 0x100),
    UInt8.ofNat number]

def adler (bytes : List UInt8) : Nat :=
  let (low, high) :=
    bytes.foldl
      (fun (low, high) byte =>
        let low := (low + byte.toNat) % 65521
        (low, (high + low) % 65521))
      (1, 0)
  high * 0x10000 + low

/-- Stored blocks of at most 65535 bytes, the last of which is marked. -/
def storedBlocks (bytes : List UInt8) : List UInt8 :=
  if bytes.length ≤ 65535 then
    1 :: halfWord bytes.length ++ halfWord (65535 - bytes.length) ++ bytes
  else
    0 :: halfWord 65535 ++ halfWord 0 ++ bytes.take 65535 ++ storedBlocks (bytes.drop 65535)
termination_by bytes.length
decreasing_by simp only [List.length_drop]; omega

def stored (bytes : List UInt8) : List UInt8 :=
  [0x78, 0x01] ++ storedBlocks bytes ++ word (adler bytes)

/-- How long a stored stream of so many bytes is taken to be.  A last block that is full counts
as if it were empty. -/
def storedEstimate (count : Nat) : Nat :=
  (count - 1) / 65535 * 65540 + count % 65535 + 11

/-- The head of a sparse stream: the stream's head, and the head of its block, which describes
the code.  Of the last byte only five bits belong to it. -/
def sparseHead : List UInt8 :=
  [120, 1, 237, 192, 3, 160, 36, 89, 150, 198, 241, 255, 119, 238, 141, 200, 204, 167, 114, 75,
    99, 174, 109, 219, 182, 109, 219, 182, 109, 219, 182, 109, 105, 140, 158, 150, 74, 175, 158,
    50, 51, 34, 238, 249, 118, 183, 106, 122, 166, 135, 59, 107, 213, 15]

def sparseHeadBits : List Bool :=
  (bitsOfBytes sparseHead).take 429

/-- The codewords of a sparse stream, as its head describes them.  The block's head stands
behind two bytes and three bits. -/
def sparseWords : Array (List Bool) :=
  match readDescription.run (sparseHeadBits.drop 19) with
  | .ok ((lengths, _), _) =>
    let code := Code.ofLengths lengths
    ((List.range lengths.length).map code.word).toArray
  | .error _ => #[]

def sparseWord (symbol : Nat) : List Bool :=
  sparseWords.getD symbol []

/-- What a sparse stream is made of: single bytes and runs of zeros. -/
inductive Token where
  | single (byte : UInt8)
  | zeros (count : Nat)
  deriving DecidableEq, Repr

/-- Cut a row into tokens, eight bytes at a time.  A run goes from zeros at the end of one
group to zeros at the start of a later one; zeros that do not belong to such a run are single
bytes, as are those behind the last whole group. -/
def tokens (run : Nat) (row : List UInt8) : List Token :=
  if row.length < 8 then
    (if run = 0 then [] else [.zeros run]) ++ row.map .single
  else
    let group := row.take 8
    if group.all (· == 0) then tokens (run + 8) (row.drop 8)
    else
      let leading := if run = 0 then 0 else (group.takeWhile (· == 0)).length
      let trailing := (group.reverse.takeWhile (· == 0)).length
      (if run = 0 then [] else [.zeros (run + leading)]) ++
        ((group.drop leading).take (8 - leading - trailing)).map .single ++
        tokens trailing (row.drop 8)
termination_by row.length
decreasing_by all_goals simp only [List.length_drop]; omega

/-- The word for a copy of the zero before; there is only one distance, with a word of one
bit. -/
def copyBits (count : Nat) : List Bool :=
  let index := (lengthTable.takeWhile (·.1 ≤ count)).length - 1
  let (least, further) := lengthTable.getD index (0, 0)
  sparseWord (endOfBlock + 1 + index) ++ bitsOfNumber further (count - least) ++ [false]

/-- The bits of a token.  A run is its first zero with copies of it; fewer than five more zeros
are written one by one. -/
def Token.bits : Token → List Bool
  | .single byte => sparseWord byte.toNat
  | .zeros count =>
    let more := count - 1
    let rest := more % 258
    sparseWord 0 ++ (List.replicate (more / 258) (copyBits 258)).flatten ++
      (if 4 < rest then copyBits rest else (List.replicate rest (sparseWord 0)).flatten)

/-- Rows of bytes as a sparse stream. -/
def sparse (rows : List (List UInt8)) : List UInt8 :=
  bytesOfBits
    (sparseHeadBits ++ rows.flatMap (fun row => (tokens 0 row).flatMap Token.bits) ++
      sparseWord endOfBlock) ++
    word (adler rows.flatten)

end Quill.Deflate
