/-!
# Characters of bytes

Bytes are cut into the characters that they encode in UTF-8.  A byte at which no well-formed
character starts stands for itself, and the next byte is tried.
-/

namespace Quill.Text

/-- The characters of bytes from a position on, with `none` for each byte that is no part of
one. -/
def charactersFrom (bytes : ByteArray) (start : Nat) : List (Option Char) :=
  if start < bytes.size then
    match bytes.utf8DecodeChar? start with
    | some character => some character :: charactersFrom bytes (start + character.utf8Size)
    | none => none :: charactersFrom bytes (start + 1)
  else []
termination_by bytes.size - start
decreasing_by
  · have := character.utf8Size_pos
    omega
  · omega

def charactersOfBytes (bytes : ByteArray) : List (Option Char) :=
  charactersFrom bytes 0

end Quill.Text
