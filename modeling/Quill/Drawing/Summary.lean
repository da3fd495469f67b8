import Quill.Drawing.Basic
import Quill.Text.Visible

/-!
# Summaries of drawings

A drawing is summed up in one line: the size of its canvas, how much has been written, how
many contexts there are, the open pattern, and the two flags of its state.
-/

namespace Quill

def shownField (name value : String) : String :=
  name ++ ": " ++ value

/-- Fields between braces behind a name. -/
def braced (name : String) (fields : List String) : String :=
  name ++ " \x7b " ++ ", ".intercalate fields ++ " \x7d"

def PatternBounds.summary (bounds : PatternBounds) : String :=
  braced "PatternBounds"
    [shownField "x" (toString bounds.x), shownField "y" (toString bounds.y),
      shownField "width" (toString bounds.width), shownField "height" (toString bounds.height)]

def Capture.summary (capture : Capture) : String :=
  braced "PatternCapture"
    [shownField "id" (Text.Visible.quoted capture.id),
      shownField "offset" (toString capture.offset),
      shownField "bounds" capture.bounds.summary]

def Drawing.summary (drawing : Drawing) : String :=
  let size := toString drawing.canvas.width ++ ", " ++ toString drawing.canvas.height
  let pattern :=
    match drawing.pattern with
    | some capture => "Some(" ++ capture.summary ++ ")"
    | none => "None"
  braced "DrawingWand"
    [shownField "image" ("(" ++ size ++ ")"),
      shownField "output_len" (toString drawing.buffer.size),
      shownField "context_depth" (toString drawing.contexts.depth),
      shownField "pattern" pattern,
      shownField "filtering" (toString drawing.filtering),
      shownField "poisoned" (toString drawing.poisoned), ".."]

end Quill
