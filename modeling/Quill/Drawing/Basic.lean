import Quill.Color.Notation
import Quill.Context.Stack
import Quill.Path
import Quill.Pattern
import Quill.Picture.Png
import Quill.Text.Base64
import Quill.Text.Blank
import Quill.Text.Quoted

/-!
# Drawings

A drawing is the program written so far together with what has to be known to go on with it:
the contexts of the open scopes, the open path and definitions, and whether the drawing can
still be used.  A drawing that ran out of room refuses to write until it is cleared.
-/

namespace Quill

/-- What a drawing asks for outside itself: the colors of names and the files of pictures. -/
structure Tools where
  resolve : String → Option Rgba := Rgba.ofName?
  encode : Picture → Except Failure EncodedPicture := Png.encode

/-- A program that is being written.  `filtering` says that settings already in force are left
out, which does not hold inside patterns and clip paths. -/
structure Drawing where
  canvas : Canvas
  settings : Settings := {}
  buffer : Buffer := {}
  contexts : ContextStack := {}
  path : Path.State := {}
  pattern : Option Capture := none
  openClips : List String := []
  openDefs : Nat := 0
  clipPaths : Text.Names := .empty
  filtering : Bool := true
  poisoned : Bool := false
  lastError : Option String := none

/-- How a call ends.  An aborted call broke a promise that its caller made, and the program
that made it stops. -/
inductive Outcome where
  | done
  | failed (failure : Failure)
  | aborted (promise : String)
  deriving DecidableEq, Repr

namespace Drawing

/-- A drawing on which nothing has been done yet. -/
def start (settings : Settings) (canvas : Canvas) : Drawing :=
  { canvas := canvas, settings := settings }

def program (drawing : Drawing) : String :=
  drawing.buffer.text

/-- The context in force. -/
def context (drawing : Drawing) : Context :=
  drawing.contexts.current

def layout (drawing : Drawing) : Layout :=
  drawing.settings.layout

/-- Remember a failure.  Running out of room makes the drawing unusable. -/
def record (drawing : Drawing) (failure : Failure) : Drawing :=
  { drawing with
    lastError := some failure.message
    poisoned := drawing.poisoned || failure == .outOfMemory }

/-- End a call with a failure that is remembered. -/
def fail (drawing : Drawing) (failure : Failure) : Drawing × Outcome :=
  (drawing.record failure, .failed failure)

/-- Settings are left out again once no pattern and no clip path is open. -/
def refilter (drawing : Drawing) : Drawing :=
  { drawing with filtering := drawing.pattern.isNone && drawing.openClips.isEmpty }

/-- Drop the program and keep contexts and definitions.  An open pattern begins anew. -/
def dropProgram (drawing : Drawing) : Drawing :=
  { drawing with
    buffer := drawing.buffer.clear
    path := {}
    pattern := drawing.pattern.map fun capture => { capture with offset := 0 } }

/-- Start over, on the same canvas. -/
def clear (drawing : Drawing) : Drawing :=
  { drawing with
    buffer := drawing.buffer.reset
    contexts := {}
    path := {}
    pattern := none
    openClips := []
    openDefs := 0
    clipPaths := .empty
    filtering := true
    poisoned := false
    lastError := none }

def clearError (drawing : Drawing) : Drawing :=
  { drawing with lastError := none }

end Drawing

end Quill
