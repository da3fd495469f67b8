import Quill.Picture.Basic
import Quill.Picture.Filter
import Quill.Picture.Lead
import Quill.Picture.Pass

/-!
# Pixels

The rows of a PNG file hold samples, filtered and packed, in one pass over the picture or in
seven.  Pixels are spelled out: a palette and transparent colors are applied, and samples of
less than a byte are spread over a byte.
-/

namespace Quill.Png

def samplesOfRow (depth : Nat) (row : List UInt8) : List Nat :=
  match depth, row with
  | _, [] => []
  | 16, high :: low :: rest => numberOfBytes [high, low] :: samplesOfRow 16 rest
  | 16, [_] => []
  | 8, byte :: rest => byte.toNat :: samplesOfRow 8 rest
  | 4, byte :: rest => byte.toNat / 16 :: byte.toNat % 16 :: samplesOfRow 4 rest
  | 2, byte :: rest =>
    byte.toNat / 64 :: byte.toNat / 16 % 4 :: byte.toNat / 4 % 4 :: byte.toNat % 4 ::
      samplesOfRow 2 rest
  | _, byte :: rest =>
    (Deflate.bitsOfNumber 8 byte.toNat).reverse.map Bool.toNat ++ samplesOfRow depth rest

/-- The bytes of a sample; less than a byte is spread over the range of a byte. -/
def spreadSample (depth sample : Nat) : List UInt8 :=
  match depth with
  | 16 => [UInt8.ofNat (sample / 0x100), UInt8.ofNat sample]
  | 8 => [UInt8.ofNat sample]
  | 4 => [UInt8.ofNat (sample * 17)]
  | 2 => [UInt8.ofNat (sample * 85)]
  | _ => [UInt8.ofNat (sample * 255)]

/-- The bytes of a sample as it is. -/
def bytesOfSample (depth sample : Nat) : List UInt8 :=
  if depth = 16 then [UInt8.ofNat (sample / 0x100), UInt8.ofNat sample] else [UInt8.ofNat sample]

namespace Lead

/-- The channels of the pixels spelled out. -/
def channels (lead : Lead) : Channels :=
  match lead.header.color, lead.transparency with
  | .gray, none => .gray
  | .gray, some _ | .grayAlpha, _ => .grayAlpha
  | .rgb, none | .indexed, none => .rgb
  | .rgb, some _ | .indexed, some _ | .rgba, _ => .rgba

/-- The bytes of the color at a place in the palette; where there is none it is black. -/
def paletteColor (lead : Lead) (place : Nat) : List UInt8 :=
  let color := ((lead.palette.getD []).drop (3 * place)).take 3
  if color.length = 3 then color else [0, 0, 0]

def pixel (lead : Lead) (samples : List Nat) : List UInt8 :=
  let depth := lead.header.depth
  let plain := samples.flatMap (spreadSample depth)
  match lead.header.color, lead.transparency with
  | .indexed, none => lead.paletteColor (samples.headD 0)
  | .indexed, some opacities =>
    lead.paletteColor (samples.headD 0) ++ [opacities.getD (samples.headD 0) 255]
  | .gray, some color | .rgb, some color =>
    let opacity : UInt8 := if samples.flatMap (bytesOfSample depth) = color then 0 else 255
    plain ++ List.replicate (if depth = 16 then 2 else 1) opacity
  | _, _ => plain

/-- The pixels of a row, up to a count. -/
def pixels (lead : Lead) : Nat → List Nat → List (List UInt8)
  | 0, _ => []
  | count + 1, samples =>
    lead.pixel (samples.take lead.header.color.samples) ::
      lead.pixels count (samples.drop lead.header.color.samples)

end Lead

/-- Rows of a length, which follow each other in bytes, without their filters; and the bytes
behind them.  The numbers of the filters have been looked at before. -/
def readRows (pixelSize length : Nat) (above : List UInt8) :
    Nat → List UInt8 → List (List UInt8) × List UInt8
  | 0, bytes => ([], bytes)
  | _ + 1, [] => ([], [])
  | count + 1, number :: bytes =>
    let filter := (Filter.ofNumber? number).getD .plain
    let row := filter.undo pixelSize above (bytes.take length)
    let (rows, rest) := readRows pixelSize length row count (bytes.drop length)
    (row :: rows, rest)

/-- The pixels of parts of a picture with their places. -/
def readPasses (lead : Lead) : List Pass → List UInt8 → List (Nat × List UInt8)
  | [], _ => []
  | pass :: later, bytes =>
    let header := lead.header
    let (width, height) := pass.extent header
    if width = 0 then readPasses lead later bytes
    else
      let length := header.rowSize width
      let (rows, rest) :=
        readRows header.pixelSize length (List.replicate length 0) height bytes
      let placed := rows.zipIdx.flatMap fun (row, y) =>
        (lead.pixels width (samplesOfRow header.depth row)).zipIdx.map fun (pixel, x) =>
          ((pass.top + y * pass.down) * header.width + pass.left + x * pass.across, pixel)
      placed ++ readPasses lead later rest

/-- The picture without its pixels. -/
def Lead.blank (lead : Lead) : Picture :=
  { channels := lead.channels
    wide := lead.header.depth = 16
    width := lead.header.width
    height := lead.header.height
    bytes := [] }

/-- The picture with given rows, all of which are there. -/
def Lead.picture (lead : Lead) (bytes : List UInt8) : Picture :=
  let header := lead.header
  let pixels := (readPasses lead (passes header.interlaced) bytes).foldl
    (fun (pixels : Array (List UInt8)) (place, pixel) => pixels.setIfInBounds place pixel)
    (Array.replicate (header.width * header.height) [])
  { lead.blank with bytes := pixels.toList.flatten }

end Quill.Png
