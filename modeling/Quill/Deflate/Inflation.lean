import Quill.Deflate.Reader

/-!
# Inflation

Compressed data comes in parts.  Each part is read as far as it goes, and what is left of it
waits for the next one.  Reading stops at the end of the data, where something is wrong, or
where there is no room for more bytes; the bytes read before are kept.
-/

namespace Quill.Deflate

/-- What comes next in compressed data.  Nothing comes behind a copy for which there was too
little room. -/
inductive Stage where
  | head
  | block
  | plain (left : Nat) (last : Bool)
  | symbols (symbols distances : Code) (last : Bool)
  | over
  | check
  | done

/-- Compressed data on its way: what comes next, the bits that wait, the bytes read so far, and
how many there may be. -/
structure Inflation where
  stage : Stage := .head
  bits : List Bool := []
  bytes : Array UInt8 := #[]
  limit : Option Nat := none

inductive Step where
  | go (stage : Stage)
  | byte (byte : UInt8)
  | copy (length distance : Nat)

def Stage.behindBlock (last : Bool) : Stage :=
  if last then .check else .block

/-- Read the two bytes in front of all blocks. -/
def readHead : BitReader Step := do
  await 16
  let method ← readNumber 8
  let flags ← readNumber 8
  if isHead method flags then return .go .block else throw (.faulty .head)

def readBlock : BitReader Step := do
  match ← readBlockHead with
  | (last, .plain 0) => return .go (.behindBlock last)
  | (last, .plain count) => return .go (.plain count last)
  | (last, .coded symbols distances) => return .go (.symbols symbols distances last)

/-- Read the checksum behind the last block.  It is not looked at. -/
def readCheck : BitReader Step := do
  skipToByte
  let _ ← readNumber 32
  return .go .done

/-- Read what a symbol stands for; `size` bytes were read before. -/
def readSymbol (symbols distances : Code) (last : Bool) (size : Nat) : BitReader Step := do
  match ← readItem symbols distances with
  | .byte byte => return .byte byte
  | .copy length distance =>
    if size < distance then throw (.faulty .reach)
    return .copy length distance
  | .blockEnd => return .go (.behindBlock last)

/-- Read the end of a block when there is no room for anything else.  It is looked for only
when fifteen bits are there. -/
def readBlockEnd (symbols : Code) (last : Bool) : BitReader Step := do
  if ((← get).take 15).length < 15 then throw .full
  if (← symbols.read) = endOfBlock then return .go (.behindBlock last) else throw .full

namespace Inflation

/-- Whether there is no room for more bytes. -/
def isFull (inflation : Inflation) : Bool :=
  inflation.limit.any (· ≤ inflation.bytes.size)

def isDone (inflation : Inflation) : Bool :=
  match inflation.stage with
  | .done => true
  | _ => false

def next (inflation : Inflation) : BitReader Step :=
  match inflation.stage with
  | .head => readHead
  | .block => readBlock
  | .plain _ _ => do
    if inflation.isFull then throw .full
    return .byte (UInt8.ofNat (← readNumber 8))
  | .symbols symbols distances last =>
    if inflation.isFull then readBlockEnd symbols last
    else readSymbol symbols distances last inflation.bytes.size
  | .check => readCheck
  | .over | .done => throw .full

def behindByte : Stage → Stage
  | .plain left last => if left ≤ 1 then .behindBlock last else .plain (left - 1) last
  | stage => stage

/-- Take a step, behind which some bits are left. -/
def take (inflation : Inflation) (bits : List Bool) (step : Step) : Inflation :=
  match inflation, step with
  | ⟨_, _, bytes, limit⟩, .go stage => ⟨stage, bits, bytes, limit⟩
  | ⟨stage, _, bytes, limit⟩, .byte byte => ⟨behindByte stage, bits, bytes.push byte, limit⟩
  | ⟨stage, _, bytes, limit⟩, .copy length distance =>
    let room := (limit.map (· - bytes.size)).getD length
    if room < length then ⟨.over, bits, copyBack distance room bytes, limit⟩
    else ⟨stage, bits, copyBack distance length bytes, limit⟩

/-- Take steps up to a stop.  Each takes a bit at least. -/
def run : Nat → Inflation → Inflation × Stop
  | 0, inflation => (inflation, .wanting)
  | steps + 1, inflation =>
    match inflation.next.run inflation.bits with
    | .ok (step, bits) => run steps (inflation.take bits step)
    | .error stop => (inflation, stop)

/-- Read a further part of the data. -/
def feed (inflation : Inflation) (part : List UInt8) : Inflation × Stop :=
  let bits := inflation.bits ++ bitsOfBytes part
  run (bits.length + 1) { inflation with bits }

end Inflation

end Quill.Deflate
