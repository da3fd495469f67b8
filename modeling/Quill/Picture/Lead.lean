import Quill.Picture.Header

/-!
# What comes before the pixels

Between the header of a PNG file and its pixels there are further chunks.  A palette and
transparent colors are taken over; the place of a frame and a few others are checked; what is
not known is passed over, unless it is critical.  A chunk that can be left out and is of a
wrong length or does not have its checksum counts as left out.
-/

namespace Quill.Png

/-- What a file has said before its pixels. -/
structure Lead where
  header : Header
  palette : Option (List UInt8) := none
  transparency : Option (List UInt8) := none
  hasColorSpace : Bool := false
  frame : Option Nat := none
  deriving DecidableEq, Repr

namespace Lead

/-- Whether pixels have places in a palette that is not there. -/
def lacksPalette (lead : Lead) : Bool :=
  lead.header.color = .indexed && lead.palette.isNone

/-- Count a frame, or a part of one.  They are counted from zero. -/
def count (lead : Lead) (number : Nat) : Except PictureFault Lead :=
  let expected := (lead.frame.map (· + 1)).getD 0
  if number = expected then .ok { lead with frame := some number }
  else .error (.frameOrder expected number)

/-- The transparency in the data of its chunk: the samples of the one transparent color, or the
opacities of the colors of a palette.  Samples up to a byte are the second of two bytes.  More
opacities than colors count as none. -/
def transparencyOf? (lead : Lead) (data : List UInt8) : Option (List UInt8) :=
  let shallow := lead.header.depth < 16
  match lead.header.color, data with
  | .gray, _ :: gray :: _ => some (if shallow then [gray] else data)
  | .rgb, _ :: red :: _ :: green :: _ :: blue :: _ =>
    some (if shallow then [red, green, blue] else data)
  | .indexed, _ :: _ =>
    lead.palette.map fun palette => if palette.length / 3 < data.length then [] else data
  | _, _ => none

/-- Take in the place of a frame.  One before the pixels covers the whole picture. -/
def takeFrame (lead : Lead) (data : List UInt8) : Except PictureFault Lead := do
  let word (place : Nat) : Nat := numberOfBytes ((data.drop place).take 4)
  let byte (place : Nat) : Nat := (data.getD place 0).toNat
  let counted ← lead.count (word 0)
  if 2 < byte 24 then throw (.frameDisposal (byte 24))
  if 1 < byte 25 then throw (.frameBlending (byte 25))
  if word 4 = 0 ∨ word 8 = 0 then throw .size
  if word 4 ≠ lead.header.width ∨ word 8 ≠ lead.header.height ∨ word 12 ≠ 0 ∨ word 16 ≠ 0 then
    throw .frameBounds
  return counted

/-- Take in a color space, of which only the first one in front of the palette counts.  Its
samples are red, green and blue, and its last byte is a truth value. -/
def takeColorSpace (lead : Lead) (data : List UInt8) : Except PictureFault Lead :=
  if lead.hasColorSpace ∨ lead.palette.isSome then .ok lead
  else if data.getD 2 0 ≠ 0 ∨ 1 < data.getD 3 0 then .error .invalid
  else .ok { lead with hasColorSpace := true }

def takeData (lead : Lead) (type data : List UInt8) : Except PictureFault Lead :=
  if type = headerType then .error (.repeated type)
  else if type = endType then .error .noData
  else if type = paletteType then
    if lead.palette.isSome then .error (.repeated type)
    else .ok { lead with palette := some data }
  else if type = transparencyType ∧ lead.transparency = none then
    .ok { lead with transparency := lead.transparencyOf? data }
  else if type = backgroundType ∧ lead.lacksPalette then .error .invalid
  else if type = colorSpaceType then lead.takeColorSpace data
  else if type = frameType then lead.takeFrame data
  else .ok lead

/-- The lengths that the data of a chunk can have, if they are limited. -/
def lengths? (type : List UInt8) : Option (Nat × Nat) :=
  [(headerType, 13, 13), (paletteType, 3, 768), (endType, 0, 0), (transparencyType, 1, 256),
    (backgroundType, 1, 6), (colorSpaceType, 4, 4), (frameType, 26, 26)].lookup type

/-- Whether a chunk has a length that it can have. -/
def fits (chunk : Chunk) : Bool :=
  (lengths? chunk.type).all fun (least, most) => least ≤ chunk.length && chunk.length ≤ most

/-- Go on only if a chunk is known or can be left out, is of a length that it can have, and is
whole; say whether it counts.  The place of a frame must be of its length, too. -/
def admits (chunk : Chunk) : Except PictureFault Bool := do
  if chunk.isCritical ∧ (lengths? chunk.type).isNone then throw (.unknownChunk chunk.type)
  if (chunk.isCritical ∨ chunk.type = frameType) ∧ !fits chunk then
    throw (.chunkLength chunk.type)
  return (← chunk.confirm) && fits chunk

def take (lead : Lead) (chunk : Chunk) : Except PictureFault Lead := do
  if chunk.type = frameDataType then throw (.strayData chunk.type)
  if ← admits chunk then lead.takeData chunk.type chunk.data else return lead

def startsPixels (lead : Lead) (chunk : Chunk) : Bool :=
  chunk.type == dataType || chunk.type == frameDataType && lead.frame.isSome

/-- Take in chunks up to the pixels, which must come; say which chunks are left. -/
def takeAll (lead : Lead) : List Chunk → Except PictureFault (Lead × List Chunk)
  | [] => .error .cutOff
  | chunk :: later => do
    if lead.startsPixels chunk then return (lead, chunk :: later)
    (← lead.take chunk).takeAll later

/-- What the first chunk says, which is the header, and the chunks behind it. -/
def ofChunks : List Chunk → Except PictureFault (Lead × List Chunk)
  | [] => .error .cutOff
  | first :: later => do
    if first.type ≠ headerType then throw (.beforeHeader first.type)
    let _ ← admits first
    return ({ header := ← Header.ofData first.data }, later)

end Lead

end Quill.Png
