import Quill.Deflate.Inflation
import Quill.Picture.Filter
import Quill.Picture.Lead
import Quill.Picture.Pass

/-!
# Compressed rows

The rows of a picture are compressed as a whole and stand in chunks that follow each other.
They are looked at as they come, so the first fault in the file is the one that counts.
-/

namespace Quill.Png

namespace Lead

/-- Look at rows of a length from a place on, of which some bytes are there.  If all are whole,
say where they end. -/
def rowsEnd? (lead : Lead) (bytes : Array UInt8) (there length : Nat) :
    Nat → Nat → Except PictureFault (Option Nat)
  | 0, start => .ok (some start)
  | count + 1, start =>
    let finish := start + 1 + length
    let number := bytes.getD start 0
    if there < finish then .ok none
    else if (Filter.ofNumber? number).isNone then .error (.filtering number.toNat)
    else if lead.lacksPalette then .error .noPalette
    else lead.rowsEnd? bytes there length count finish

/-- Look at the rows of parts of a picture: whether all are whole. -/
def isWhole (lead : Lead) (bytes : Array UInt8) (there : Nat) :
    List Pass → Nat → Except PictureFault Bool
  | [], _ => .ok true
  | pass :: later, start => do
    let (width, height) := pass.extent lead.header
    if width = 0 then lead.isWhole bytes there later start
    else
      match ← lead.rowsEnd? bytes there (lead.header.rowSize width) height start with
      | some finish => lead.isWhole bytes there later finish
      | none => return false

/-- The compressed bytes in a chunk of pixels.  Those of a frame have its number before them. -/
def takePart (lead : Lead) (chunk : Chunk) : Except PictureFault (Lead × List UInt8) := do
  if chunk.type ≠ frameDataType then return (lead, chunk.data)
  if chunk.length < 4 then throw .shortFrameData
  if chunk.data.length < 4 then throw .cutOff
  return (← lead.count (numberOfBytes (chunk.data.take 4)), chunk.data.drop 4)

/-- Nothing has been read.  There is no room for more than the rows, unless they are
interlaced. -/
def inflation (lead : Lead) : Deflate.Inflation :=
  { limit := if lead.header.interlaced then none else some lead.header.dataSize }

/-- How many bytes can be looked at.  The last ones are held back while further ones may copy
them, unless there is a limit. -/
def seen (inflation : Deflate.Inflation) : Nat :=
  if inflation.limit.isSome ∨ inflation.isDone then inflation.bytes.size
  else inflation.bytes.size - 0x8000

/-- Pass over the rest of the chunks of a type, which must be whole.  The head of another chunk
stands behind them. -/
def passOver (lead : Lead) (type : List UInt8) : List Chunk → Except PictureFault Unit
  | [] => .error .cutOff
  | chunk :: later => do
    if chunk.type ≠ type then return
    let (lead, _) ← lead.takePart chunk
    let _ ← chunk.confirm
    lead.passOver type later

/-- Read the rows in the chunks of a type. -/
def readData (lead : Lead) (type : List UInt8) (inflation : Deflate.Inflation) :
    List Chunk → Except PictureFault (List UInt8)
  | [] => .error .cutOff
  | chunk :: later => do
    if chunk.type ≠ type then
      throw (if inflation.isDone then .tooFewData else .compressed .cutOff)
    let (lead, part) ← lead.takePart chunk
    let (inflation, stop) := inflation.feed part
    if let .faulty fault := stop then throw (.compressed fault)
    let isWhole ← lead.isWhole inflation.bytes (seen inflation) (passes lead.header.interlaced) 0
    let _ ← chunk.confirm
    if isWhole then
      lead.passOver type later
      return inflation.bytes.toList
    lead.readData type inflation later

end Lead

end Quill.Png
