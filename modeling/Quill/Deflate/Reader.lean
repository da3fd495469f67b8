import Quill.Deflate.Code

/-!
# Reading compressed data

Compressed data consists of blocks.  A block holds bytes as they are, or symbols of a prefix
code, which stand for single bytes, for copies of bytes read before, and for the block's end.
The code is a fixed one or is described at the block's head.  Here the parts of a block are
read from bits; either a whole part is read or nothing.
-/

namespace Quill.Deflate

/-- The shortest copy of each length symbol, and how many more bits fix its length. -/
def lengthTable : List (Nat × Nat) :=
  [(3, 0), (4, 0), (5, 0), (6, 0), (7, 0), (8, 0), (9, 0), (10, 0), (11, 1), (13, 1), (15, 1),
    (17, 1), (19, 2), (23, 2), (27, 2), (31, 2), (35, 3), (43, 3), (51, 3), (59, 3), (67, 4),
    (83, 4), (99, 4), (115, 4), (131, 5), (163, 5), (195, 5), (227, 5), (258, 0)]

/-- The least distance of each distance symbol, and how many more bits fix the distance. -/
def distanceTable : List (Nat × Nat) :=
  [(1, 0), (2, 0), (3, 0), (4, 0), (5, 1), (7, 1), (9, 2), (13, 2), (17, 3), (25, 3), (33, 4),
    (49, 4), (65, 5), (97, 5), (129, 6), (193, 6), (257, 7), (385, 7), (513, 8), (769, 8),
    (1025, 9), (1537, 9), (2049, 10), (3073, 10), (4097, 11), (6145, 11), (8193, 12),
    (12289, 12), (16385, 13), (24577, 13)]

/-- The symbol that ends a block; those below it are bytes, those above it lengths. -/
def endOfBlock : Nat := 256

/-- The lengths of the fixed code's words, for bytes and lengths and for distances.  The last
of either kind stand for nothing. -/
def fixedLengths : List Nat × List Nat :=
  (List.replicate 144 8 ++ List.replicate 112 9 ++ List.replicate 24 7 ++ List.replicate 8 8,
    List.replicate 32 5)

/-- The order in which a block's head gives the lengths of the words for lengths. -/
def headOrder : List Nat :=
  [16, 17, 18, 0, 8, 7, 9, 6, 10, 5, 11, 4, 12, 3, 13, 2, 14, 1, 15]

def Code.read (code : Code) : BitReader Nat := do
  match ← code.read? with
  | some symbol => return symbol
  | none => throw (.faulty .code)

/-- Read lengths up to a count.  Some symbols repeat the length before or zero.  The lengths
held are the latest first, and each step adds one at least. -/
def readLengths (code : Code) (count : Nat) : Nat → List Nat → BitReader (List Nat)
  | 0, held => return held.reverse
  | steps + 1, held => do
    if count ≤ held.length then return held.reverse
    await 7
    let added ←
      match ← code.read with
      | 16 => do
        let further ← readNumber 2
        match held with
        | [] => throw (.faulty .repetition)
        | latest :: _ => pure (List.replicate (3 + further) latest)
      | 17 => pure (List.replicate (3 + (← readNumber 3)) 0)
      | 18 => pure (List.replicate (11 + (← readNumber 7)) 0)
      | length => pure [length]
    if count < held.length + added.length then throw (.faulty .repetition)
    readLengths code count steps (added ++ held)

/-- Read the description of a code: the lengths of the words for bytes and lengths, and of those
for distances. -/
def readDescription : BitReader (List Nat × List Nat) := do
  await 14
  let symbols := 257 + (← readNumber 5)
  let distances := 1 + (← readNumber 5)
  let given := 4 + (← readNumber 4)
  if 286 < symbols then throw (.faulty .symbolCount)
  if 30 < distances then throw (.faulty .distanceCount)
  let lengths ← (headOrder.take given).mapM fun symbol => return (symbol, ← readNumber 3)
  let code := Code.ofLengths ((List.range 19).map fun symbol => (lengths.lookup symbol).getD 0)
  if !code.isComplete then throw (.faulty .code)
  let all ← readLengths code (symbols + distances) (symbols + distances) []
  return (all.take symbols, all.drop symbols)

/-- What a block's head announces: so many bytes as they are, or symbols of two codes. -/
inductive BlockKind where
  | plain (count : Nat)
  | coded (symbols distances : Code)

/-- The kind of a block with given lengths of its codewords.  The codes are complete, and the
block's end has a codeword; only the code of the distances may be trivial. -/
def codedBlock (lengths : List Nat × List Nat) : Except Fault BlockKind := do
  let symbols := Code.ofLengths lengths.1
  let distances := Code.ofLengths lengths.2
  if lengths.1.getD endOfBlock 0 = 0 then throw .noEnd
  if !symbols.isComplete then throw .code
  if !distances.isComplete && !distances.isTrivial then throw .distanceCode
  return .coded symbols distances

/-- Read the length of a block of bytes as they are.  It starts at a whole byte, and is written
twice, the second time with each bit turned over. -/
def readPlainHead : BitReader BlockKind := do
  skipToByte
  await 32
  let count ← readNumber 16
  if count + (← readNumber 16) ≠ 65535 then throw (.faulty .storedLength)
  return .plain count

/-- Read a block's head: whether the block is the last one, and its kind.  No block is shorter
than ten bits. -/
def readBlockHead : BitReader (Bool × BlockKind) := do
  await 10
  let last ← readNumber 1
  let kind ←
    match ← readNumber 2 with
    | 0 => readPlainHead
    | 1 => monadLift ((codedBlock fixedLengths).mapError Stop.faulty)
    | 2 => do
      let lengths ← readDescription
      monadLift ((codedBlock lengths).mapError Stop.faulty)
    | _ => throw (.faulty .blockKind)
  return (last = 1, kind)

/-- Read a number from a table of least values and further bits. -/
def readTabled (entry : Nat × Nat) : BitReader Nat :=
  return entry.1 + (← readNumber entry.2)

/-- Read a distance.  That it has no codeword shows only when ten bits are there. -/
def readDistance (distances : Code) : BitReader Nat := do
  let bits ← get
  match (← distances.read?).bind (distanceTable[·]?) with
  | some entry => readTabled entry
  | none =>
    set bits
    await 10
    throw (.faulty .distance)

/-- What a symbol with its further bits stands for. -/
inductive Item where
  | byte (byte : UInt8)
  | copy (length distance : Nat)
  | blockEnd
  deriving DecidableEq, Repr

/-- Read an item.  The symbols that stand for nothing end a block too. -/
def readItem (symbols distances : Code) : BitReader Item := do
  let symbol ← symbols.read
  if symbol < endOfBlock then return .byte (UInt8.ofNat symbol)
  if symbol = endOfBlock then return .blockEnd
  match lengthTable[symbol - (endOfBlock + 1)]? with
  | some entry => return .copy (← readTabled entry) (← readDistance distances)
  | none => return .blockEnd

/-- Bytes with a copy of so many of them from so far back; it may take in what it appends. -/
def copyBack (distance : Nat) : Nat → Array UInt8 → Array UInt8
  | 0, bytes => bytes
  | count + 1, bytes =>
    copyBack distance count (bytes.push (bytes.getD (bytes.size - distance) 0))

/-- Whether two bytes are the head of compressed data: they name the method and a window that
is not too large, ask for no dictionary, and stand for a multiple of 31. -/
def isHead (method flags : Nat) : Bool :=
  method % 16 == 8 && method / 16 ≤ 7 && !flags.testBit 5 && (method * 256 + flags) % 31 == 0

end Quill.Deflate
