import Quill.Text.Table

/-!
# The canvas

A program draws on a canvas.  Of the canvas only its size and its artifacts matter here; an
artifact is a text under a key, and writing a key again replaces the text.
-/

namespace Quill

structure Canvas where
  width : Nat
  height : Nat
  artifacts : Text.Table String := .empty
  deriving DecidableEq, Repr

namespace Canvas

def setArtifact (canvas : Canvas) (key text : String) : Canvas :=
  { canvas with artifacts := canvas.artifacts.insert key text }

def artifact? (canvas : Canvas) (key : String) : Option String :=
  canvas.artifacts.get? key

end Canvas

end Quill
