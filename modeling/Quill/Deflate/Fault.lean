/-!
# Faults of compressed data

Compressed data can be wrong in its head, in the description of a code, or in what the code
stands for; or it can end too early.
-/

namespace Quill.Deflate

inductive Fault where
  | head
  | cutOff
  | blockKind
  | storedLength
  | symbolCount
  | distanceCount
  | repetition
  | code
  | noEnd
  | distanceCode
  | distance
  | reach
  deriving DecidableEq, Repr

def Fault.name : Fault → String
  | .head => "BadZlibHeader"
  | .cutOff => "InsufficientInput"
  | .blockKind => "InvalidBlockType"
  | .storedLength => "InvalidUncompressedBlockLength"
  | .symbolCount => "InvalidHlit"
  | .distanceCount => "InvalidHdist"
  | .repetition => "InvalidCodeLengthRepeat"
  | .code => "BadCodeLengthHuffmanTree"
  | .noEnd => "BadLiteralLengthHuffmanTree"
  | .distanceCode => "BadDistanceHuffmanTree"
  | .distance => "InvalidDistanceCode"
  | .reach => "DistanceTooFarBack"

end Quill.Deflate
