import Quill.Picture.Chunk

/-!
# Kinds of picture files

The kind of a picture file shows in its first bytes.
-/

namespace Quill

/-- The kinds of picture files that can be told apart, by their names, with the bytes they start
with.  Where there is no byte any will do. -/
def pictureSignatures : List (String × List (Option UInt8)) :=
  let bytes (text : String) := text.toUTF8.toList.map some
  let any (count : Nat) : List (Option UInt8) := List.replicate count none
  [("Png", Png.signature.map some), ("Jpeg", [some 0xFF, some 0xD8, some 0xFF]),
    ("Gif", bytes "GIF89a"), ("Gif", bytes "GIF87a"),
    ("WebP", bytes "RIFF" ++ any 4 ++ bytes "WEBP"), ("Tiff", bytes "MM\x00*"),
    ("Tiff", bytes "II*\x00"), ("Dds", bytes "DDS "), ("Bmp", bytes "BM"),
    ("Ico", [some 0, some 0, some 1, some 0]), ("Hdr", bytes "#?RADIANCE"),
    ("Avif", [some 0, some 0] ++ any 2 ++ bytes "ftypavif"),
    ("OpenExr", [some 0x76, some 0x2F, some 0x31, some 0x01]), ("Qoi", bytes "qoif"),
    ("Pnm", bytes "P1"), ("Pnm", bytes "P2"), ("Pnm", bytes "P3"), ("Pnm", bytes "P4"),
    ("Pnm", bytes "P5"), ("Pnm", bytes "P6"), ("Pnm", bytes "P7"),
    ("Farbfeld", bytes "farbfeld")]

def startsAs : List (Option UInt8) → List UInt8 → Bool
  | [], _ => true
  | _ :: _, [] => false
  | wanted :: more, byte :: rest => wanted.all (· == byte) && startsAs more rest

def pictureKind? (bytes : List UInt8) : Option String :=
  (pictureSignatures.find? fun (_, start) => startsAs start bytes).map Prod.fst

end Quill
