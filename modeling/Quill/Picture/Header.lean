import Quill.Picture.Chunk

/-!
# Headers

The first chunk of a PNG file tells the size of the picture, and how its pixels are written.
-/

namespace Quill.Png

/-- What the samples of a pixel stand for.  An indexed pixel has one sample, its place in a
palette. -/
inductive ColorType where
  | gray
  | rgb
  | indexed
  | grayAlpha
  | rgba
  deriving DecidableEq, Repr

namespace ColorType

def number : ColorType → Nat
  | .gray => 0
  | .rgb => 2
  | .indexed => 3
  | .grayAlpha => 4
  | .rgba => 6

def ofNumber? (number : Nat) : Option ColorType :=
  [gray, rgb, indexed, grayAlpha, rgba].find? (·.number == number)

def name : ColorType → String
  | .gray => "Grayscale"
  | .rgb => "Rgb"
  | .indexed => "Indexed"
  | .grayAlpha => "GrayscaleAlpha"
  | .rgba => "Rgba"

def samples : ColorType → Nat
  | .gray | .indexed => 1
  | .grayAlpha => 2
  | .rgb => 3
  | .rgba => 4

/-- Whether samples of a color type can have a depth. -/
def admits (color : ColorType) (depth : Nat) : Bool :=
  match color with
  | .gray => true
  | .indexed => depth ≤ 8
  | .rgb | .grayAlpha | .rgba => 8 ≤ depth

end ColorType

/-- The depths that samples can have, in bits, with their names in messages. -/
def depths : List (Nat × String) :=
  [(1, "One"), (2, "Two"), (4, "Four"), (8, "Eight"), (16, "Sixteen")]

/-- What a file says about its pixels before they come. -/
structure Header where
  width : Nat
  height : Nat
  depth : Nat
  color : ColorType
  interlaced : Bool
  deriving DecidableEq, Repr

namespace Header

/-- The header in the data of a header chunk.  The first thing that is wrong counts. -/
def ofData (data : List UInt8) : Except PictureFault Header := do
  let width := numberOfBytes (data.take 4)
  let height := numberOfBytes ((data.drop 4).take 4)
  if width = 0 ∨ height = 0 then throw .size
  let byte (place : Nat) : Nat := (data.getD place 0).toNat
  let depth := byte 8
  let some depthName := depths.lookup depth | throw (.depth depth)
  let some color := ColorType.ofNumber? (byte 9) | throw (.color (byte 9))
  if !color.admits depth then throw (.colorDepth color.name depthName)
  if byte 10 ≠ 0 then throw (.compression (byte 10))
  if byte 11 ≠ 0 then throw (.filtering (byte 11))
  if 1 < byte 12 then throw (.interlacing (byte 12))
  return ⟨width, height, depth, color, byte 12 = 1⟩

/-- How many bytes a row of so many pixels has. -/
def rowSize (header : Header) (width : Nat) : Nat :=
  (width * header.color.samples * header.depth + 7) / 8

/-- How many bytes a pixel has, one at least. -/
def pixelSize (header : Header) : Nat :=
  max 1 (header.color.samples * header.depth / 8)

end Header

end Quill.Png
