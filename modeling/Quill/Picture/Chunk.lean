import Quill.Deflate.Writer
import Quill.Picture.Fault

/-!
# Chunks

Behind its signature a PNG file consists of chunks.  A chunk has a length, a type of four
letters, data, and a checksum of type and data.  A chunk whose type starts with a small letter
can be left out.
-/

namespace Quill.Png

/-- The first bytes of every PNG file. -/
def signature : List UInt8 :=
  [0x89, 0x50, 0x4E, 0x47, 0x0D, 0x0A, 0x1A, 0x0A]

def checkBit (check : UInt32) : UInt32 :=
  if check &&& 1 = 1 then (check >>> 1) ^^^ 0xEDB88320 else check >>> 1

def checkByte (check : UInt32) (byte : UInt8) : UInt32 :=
  (List.range 8).foldl (fun check _ => checkBit check) (check ^^^ byte.toUInt32)

/-- The cyclic redundancy check of some bytes. -/
def checkSum (bytes : List UInt8) : Nat :=
  (bytes.foldl checkByte 0xFFFFFFFF ^^^ 0xFFFFFFFF).toNat

/-- A chunk: the length that it states, its data, and the checksum that it states.  The last
chunk of a file may be cut off; then there are less data, or no checksum. -/
structure Chunk where
  type : List UInt8
  length : Nat
  data : List UInt8
  check : Option Nat
  deriving DecidableEq, Repr

/-- The type of the chunk with a picture's sizes, `IHDR`. -/
def headerType : List UInt8 := [0x49, 0x48, 0x44, 0x52]

/-- The type of the chunk with the colors of a palette, `PLTE`. -/
def paletteType : List UInt8 := [0x50, 0x4C, 0x54, 0x45]

/-- The type of the chunk that makes colors transparent, `tRNS`. -/
def transparencyType : List UInt8 := [0x74, 0x52, 0x4E, 0x53]

/-- The type of the chunk with the color behind the picture, `bKGD`. -/
def backgroundType : List UInt8 := [0x62, 0x4B, 0x47, 0x44]

/-- The type of the chunk with the color space, `cICP`. -/
def colorSpaceType : List UInt8 := [0x63, 0x49, 0x43, 0x50]

/-- The type of the chunks with pixels, `IDAT`. -/
def dataType : List UInt8 := [0x49, 0x44, 0x41, 0x54]

/-- The type of the chunks that tell where a frame of an animation lies, `fcTL`. -/
def frameType : List UInt8 := [0x66, 0x63, 0x54, 0x4C]

/-- The type of the chunks with pixels of later frames, `fdAT`. -/
def frameDataType : List UInt8 := [0x66, 0x64, 0x41, 0x54]

/-- The type of the last chunk, `IEND`. -/
def endType : List UInt8 := [0x49, 0x45, 0x4E, 0x44]

/-- The number of some bytes, most significant first. -/
def numberOfBytes (bytes : List UInt8) : Nat :=
  bytes.foldl (fun value byte => value * 0x100 + byte.toNat) 0

def chunkBytes (type data : List UInt8) : List UInt8 :=
  Deflate.word data.length ++ type ++ data ++ Deflate.word (checkSum (type ++ data))

namespace Chunk

/-- The checksum that a chunk should have. -/
def foundCheck (chunk : Chunk) : Nat :=
  checkSum (chunk.type ++ chunk.data)

def isSound (chunk : Chunk) : Bool :=
  chunk.check == some chunk.foundCheck

/-- Whether a chunk must not be left out. -/
def isCritical (chunk : Chunk) : Bool :=
  match chunk.type with
  | first :: _ => !first.toNat.testBit 5
  | [] => true

/-- Go on only if a chunk is whole, and say whether it is sound.  One that must not be left out
has to be. -/
def confirm (chunk : Chunk) : Except PictureFault Bool := do
  let some stated := chunk.check | throw .cutOff
  if chunk.isCritical ∧ !chunk.isSound then
    throw (.checkSum chunk.type stated chunk.foundCheck)
  return chunk.isSound

/-- The chunks in some bytes.  A chunk is there as soon as its length and its type are. -/
def split (bytes : List UInt8) : List Chunk :=
  if (bytes.take 8).length < 8 then []
  else
    let length := numberOfBytes (bytes.take 4)
    let behind := bytes.drop (8 + length)
    let check := behind.take 4
    { type := (bytes.drop 4).take 4
      length
      data := (bytes.drop 8).take length
      check := if check.length < 4 then none else some (numberOfBytes check) } ::
        split (bytes.drop (12 + length))
termination_by bytes.length
decreasing_by simp only [List.length_take, List.length_drop] at *; omega

end Chunk

end Quill.Png
