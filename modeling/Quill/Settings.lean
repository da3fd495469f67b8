import Quill.Buffer
import Quill.Json.Codec

/-!
# Settings

What can be chosen about a program's text: where lists of coordinates wrap, how wide the lines
of inline picture data are, where the geometry of a pattern is published, and how long the
program may become.  Every field of a settings file may be left out.
-/

namespace Quill

/-- Where the geometry of a finished pattern is published: beside the pattern's text, or in
its place. -/
inductive GeometryKey where
  | separate
  | shared
  deriving DecidableEq, Repr

instance : Json.Keyword GeometryKey where
  all := [.separate, .shared]
  name
    | .separate => "separate"
    | .shared => "shared"

/-- The choices about a program's text. -/
structure Settings where
  wrapColumn : Nat := 78
  base64Width : Nat := 76
  geometryKey : GeometryKey := .separate
  maxBytes : Option Nat := none
  deriving DecidableEq, Repr

def Settings.layout (settings : Settings) : Layout :=
  ⟨settings.wrapColumn, settings.maxBytes⟩

open Json Json.FieldReader

instance : Codec Settings where
  encode settings :=
    .object [("wrap_column", encode settings.wrapColumn),
      ("base64_line_width", encode settings.base64Width),
      ("pattern_geometry_key", encode settings.geometryKey),
      ("max_output_bytes", encode settings.maxBytes)]
  decode value := value.readRecord? do
    let standard : Settings := {}
    return {
      wrapColumn := ← defaulted "wrap_column" standard.wrapColumn
      base64Width := ← defaulted "base64_line_width" standard.base64Width
      geometryKey := ← defaulted "pattern_geometry_key" standard.geometryKey
      maxBytes := ← defaulted "max_output_bytes" standard.maxBytes }

end Quill
