import Quill.Deflate.Fault
import Quill.Text.Visible

/-!
# Faults of picture files

Why the bytes of a file are not taken for a picture, and the messages that say so.
-/

namespace Quill

/-- Why bytes are not taken for a picture.  Chunks are named by the four bytes of their type. -/
inductive PictureFault where
  | unknownKind
  | unsupported (kind : String)
  | cutOff
  | tooLarge
  | invalid
  | beforeHeader (type : List UInt8)
  | unknownChunk (type : List UInt8)
  | chunkLength (type : List UInt8)
  | checkSum (type : List UInt8) (stated found : Nat)
  | repeated (type : List UInt8)
  | strayData (type : List UInt8)
  | size
  | depth (bits : Nat)
  | color (number : Nat)
  | colorDepth (color depth : String)
  | compression (method : Nat)
  | filtering (method : Nat)
  | interlacing (method : Nat)
  | frameOrder (expected found : Nat)
  | frameBounds
  | frameDisposal (number : Nat)
  | frameBlending (number : Nat)
  | shortFrameData
  | noData
  | noPalette
  | compressed (fault : Deflate.Fault)
  | tooFewData
  deriving DecidableEq, Repr

namespace PictureFault

/-- A byte as a character in the description of a chunk. -/
def showByte (byte : UInt8) : List Char :=
  if byte = 0x27 then ['\\', '\''] else Text.Visible.showCharacter (Char.ofNat byte.toNat)

/-- The description of a chunk: its type, and what the cases of its four letters say. -/
def describe (type : List UInt8) : String :=
  let isSmall (place : Nat) : Bool := (type.getD place 0).toNat.testBit 5
  let flag (value : Bool) : String := if value then "true" else "false"
  "ChunkType \x7b type: " ++ String.ofList (type.flatMap showByte) ++
    ", critical: " ++ flag (!isSmall 0) ++ ", private: " ++ flag (isSmall 1) ++
    ", reserved: " ++ flag (isSmall 2) ++ ", safecopy: " ++ flag (isSmall 3) ++ " \x7d"

def hexadecimal (number : Nat) : String :=
  "0x" ++ String.ofList (Nat.toDigits 16 number)

def reason : PictureFault → String
  | .unknownKind => "The image format could not be determined"
  | .unsupported kind => "The image format " ++ kind ++ " is not supported"
  | .cutOff => "unexpected end of file"
  | .tooLarge => "Memory limit exceeded"
  | .invalid => "invalid data"
  | .beforeHeader type => describe type ++ " chunk appeared before IHDR chunk"
  | .unknownChunk type => "Unrecognized critical chunk: " ++ describe type
  | .chunkLength type => "Chunk length wrong: " ++ describe type
  | .checkSum type stated found =>
    "CRC error: expected " ++ hexadecimal stated ++ " have " ++ hexadecimal found ++
      " while decoding " ++ describe type ++ " chunk."
  | .repeated type => "Chunk " ++ describe type ++ " must appear at most once."
  | .strayData type => "Unexpected restart of " ++ describe type ++ " chunk sequence"
  | .size => "Invalid image dimensions"
  | .depth bits => "Invalid bit depth " ++ toString bits ++ "."
  | .color number => "Invalid color type " ++ toString number ++ "."
  | .colorDepth colorName depthName =>
    "Invalid color/depth combination in header: " ++ colorName ++ "/" ++ depthName
  | .compression method => "Unknown compression method " ++ toString method ++ "."
  | .filtering method => "Unknown filter method " ++ toString method ++ "."
  | .interlacing method => "Unknown interlace method " ++ toString method ++ "."
  | .frameOrder expected found =>
    "Sequence is not in order, expected #" ++ toString expected ++ " got #" ++ toString found ++
      "."
  | .frameBounds => "Sub frame is out-of-bounds."
  | .frameDisposal number => "Invalid dispose op " ++ toString number ++ "."
  | .frameBlending number => "Invalid blend op " ++ toString number ++ "."
  | .shortFrameData => "fdAT chunk shorter than 4 bytes"
  | .noData => "IDAT or fdAT chunk is missing."
  | .noPalette => "Missing palette of indexed image."
  | .compressed fault => "Corrupt deflate stream. " ++ fault.name
  | .tooFewData => "IDAT or fDAT chunk does not have enough data for image."

/-- The messages of a fault, outermost first.  What is wrong inside a file is told twice. -/
def causes (fault : PictureFault) : List String :=
  match fault with
  | .unknownKind | .unsupported _ | .cutOff | .tooLarge | .invalid => [fault.reason]
  | _ => ["Format error decoding Png: " ++ fault.reason, fault.reason]

end PictureFault

end Quill
