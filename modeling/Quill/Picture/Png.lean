import Quill.Picture.Data
import Quill.Picture.Format
import Quill.Picture.Pixels

/-!
# PNG files

A picture is written as a PNG file with one chunk of data, filtered and sparse if that is not
longer than the plain rows.  Files of every color type and depth are read, plain and
interlaced.
-/

namespace Quill.Png

def colorType : Channels → ColorType
  | .gray => .gray
  | .rgb => .rgb
  | .grayAlpha => .grayAlpha
  | .rgba => .rgba

/-- Cut bytes into rows of a length. -/
def rowsOf (length : Nat) : Nat → List UInt8 → List (List UInt8)
  | 0, _ => []
  | count + 1, bytes => bytes.take length :: rowsOf length count (bytes.drop length)

def dataOf (picture : Picture) : List UInt8 :=
  let length := picture.width * picture.pixelSize
  let rows := rowsOf length picture.height picture.bytes
  let sparse :=
    Deflate.sparse (Filter.applyBest picture.pixelSize (List.replicate length 0) rows)
  if Deflate.storedEstimate (picture.height * (1 + length)) < sparse.length then
    Deflate.stored (rows.flatMap (Filter.plain.number :: ·))
  else sparse

def file (picture : Picture) : List UInt8 :=
  let header :=
    Deflate.word picture.width ++ Deflate.word picture.height ++
      [if picture.wide then 16 else 8, UInt8.ofNat (colorType picture.channels).number,
        0, 0, 0]
  signature ++ chunkBytes headerType header ++ chunkBytes dataType (dataOf picture) ++
    chunkBytes endType []

/-- Encode a picture.  A picture without pixels has no file. -/
def encode (picture : Picture) : Except Failure EncodedPicture :=
  if picture.width = 0 ∨ picture.height = 0 then
    .error (.other "encode composite image as png" [])
  else
    .ok ⟨"image/png", file picture⟩

/-- Go on only if the pixels have not too many bytes. -/
def keepWithin (most : Nat) (lead : Lead) : Except PictureFault Unit :=
  let blank := lead.blank
  if most < blank.width * blank.height * blank.pixelSize then .error .tooLarge else .ok ()

/-- The picture in a file's chunks.  Pixels that cannot be counted in sixty-three bits are
refused at once, and those of more than half a gibibyte as soon as they come.  What stands behind
the pixels is not looked at. -/
def pictureOfChunks (chunks : List Chunk) : Except PictureFault Picture := do
  let (first, later) ← Lead.ofChunks chunks
  keepWithin 0x7FFFFFFFFFFFFFFF first
  let (lead, others) ← first.takeAll later
  keepWithin 0x20000000 lead
  let type := (others.head?.map Chunk.type).getD dataType
  return lead.picture (← lead.readData type lead.inflation others)

/-- Take the bytes of a file for a picture, or say why they are none. -/
def read (bytes : List UInt8) : Except PictureFault Picture :=
  match pictureKind? bytes with
  | none => .error .unknownKind
  | some "Png" => pictureOfChunks (Chunk.split (bytes.drop signature.length))
  | some kind => .error (.unsupported kind)

end Quill.Png
