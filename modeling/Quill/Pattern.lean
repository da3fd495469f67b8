import Quill.Canvas
import Quill.Number.Nearest
import Quill.Settings

/-!
# Patterns

A pattern is a part of the program that is kept as an artifact under its name, together with
its bounds in whole pixels.  While a pattern is open it is known where in the program its text
begins.
-/

namespace Quill

/-- The bounds of a pattern in whole pixels. -/
structure PatternBounds where
  x : Int
  y : Int
  width : Int
  height : Int
  deriving DecidableEq, Repr

namespace PatternBounds

/-- The nearest whole coordinate, a half to the smaller one. -/
def origin (coordinate : Float) : Int :=
  (Number.Reading.of (coordinate - 0.5)).within (-0x8000000000000000) 0x7FFFFFFFFFFFFFFF
    Number.Binary.ceil

/-- The nearest whole size, a half to the larger one; no size is negative. -/
def extent (size : Float) : Int :=
  (Number.Reading.of (size + 0.5)).within 0 0xFFFFFFFFFFFFFFFF Number.Binary.floor

/-- Round a rectangle to whole pixels. -/
def ofRectangle (x y width height : Float) : PatternBounds :=
  ⟨origin x, origin y, extent width, extent height⟩

def signed (offset : Int) : String :=
  (if offset < 0 then "-" else "+") ++ toString offset.natAbs

/-- The text of bounds: the size, then the offset of the origin. -/
def text (bounds : PatternBounds) : String :=
  toString bounds.width ++ "x" ++ toString bounds.height ++ signed bounds.x ++ signed bounds.y

end PatternBounds

/-- An open pattern: its name, the byte offset of its text, and its bounds. -/
structure Capture where
  id : String
  offset : Nat
  bounds : PatternBounds
  deriving DecidableEq, Repr

/-- The key that a pattern's text is published under. -/
def patternKey (id : String) : String :=
  "[" ++ id ++ "]"

/-- The key that a pattern's bounds are published under, if they have one of their own. -/
def geometryKey (id : String) : String :=
  "[" ++ id ++ "]-geometry"

def Canvas.publish (canvas : Canvas) (placement : GeometryKey) (capture : Capture)
    (body : String) : Canvas :=
  let withBody := canvas.setArtifact (patternKey capture.id) body
  match placement with
  | .separate => withBody.setArtifact (geometryKey capture.id) capture.bounds.text
  | .shared => withBody.setArtifact (patternKey capture.id) capture.bounds.text

end Quill
