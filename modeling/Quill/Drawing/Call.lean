import Quill.Drawing.Bracket
import Quill.Drawing.Motion
import Quill.Drawing.Setting
import Quill.Drawing.Shape

/-!
# Calls

Everything that can be done to a drawing.  Instructions can also stand in scripts; the other
calls take values that a script cannot hold, such as a picture or a rasterizer, or act on the
drawing as a whole.
-/

namespace Quill

inductive Instruction where
  | setting (setting : Setting)
  | motion (motion : Motion)
  | shape (shape : Shape)
  | path (step : Path.Step)
  | bracket (bracket : Bracket)
  | comment (text : String)

/-- Where and how a picture is put into a program. -/
structure Placement where
  operator : Compositing
  x : Float
  y : Float
  width : Float
  height : Float

/-- What draws a program on a canvas, with the context in force. -/
abbrev Rasterizer := Canvas → String → Context → Canvas × Option Failure

inductive Call where
  | instruct (instruction : Instruction)
  | accent (accent : Accent) (color : Rgba)
  | composite (placement : Placement) (picture : Picture)
  | render (rasterizer : Rasterizer)
  | dropProgram
  | clear
  | clearError

def Path.Step.plan (drawing : Drawing) : Path.Step → Plan
  | .start => .write [.plain "path '"] (.path {})
  | .finish => .write [.plain "'\n"] (.path {})
  | .close =>
    let mode := drawing.path.closeMode
    .write [.wrapping (drawing.path.token .close mode).text]
      (.path (drawing.path.advance .close mode))
  | .segment mode command =>
    let mode := mode.orAbsolute
    let token := drawing.path.token command.operation mode
    .write [.wrapping (token.text ++ command.coordinates)]
      (.path (drawing.path.advance command.operation mode))

def Instruction.plan (tools : Tools) (drawing : Drawing) : Instruction → Plan
  | .setting change => change.plan tools drawing
  | .motion move => move.plan
  | .shape figure => figure.plan
  | .path step => step.plan drawing
  | .bracket edge => edge.plan drawing
  | .comment text => .line ("#" ++ text)

/-- The instruction that puts an encoded picture into a program. -/
def Placement.text (placement : Placement) (base64Width : Nat) (encoded : EncodedPicture) :
    String :=
  let lines := Text.Base64.lines encoded.bytes base64Width
  "image " ++ placement.operator.token ++ " " ++
    Number.coordinatePair placement.x placement.y ++ " " ++
    Number.coordinatePair placement.width placement.height ++
    " 'data:" ++ encoded.mime ++ ";base64,\n" ++ "\n".intercalate lines ++ "\n'"

def Placement.hasExtent (placement : Placement) : Bool :=
  placement.width != 0 && placement.height != 0

/-- What the caller of a composite promises. -/
def Placement.promise : String :=
  "composite requires a non-zero width and height"

namespace Drawing

/-- Put a picture into a program.  The caller promises an extent, whatever the state of the
drawing; a drawing that cannot be used does not encode the picture. -/
def composite (tools : Tools) (drawing : Drawing) (placement : Placement) (picture : Picture) :
    Drawing × Outcome :=
  if !placement.hasExtent then (drawing, .aborted Placement.promise)
  else if drawing.poisoned then drawing.fail .poisoned
  else
    match tools.encode picture with
    | .error failure => drawing.fail failure
    | .ok encoded =>
      (Plan.line (placement.text drawing.settings.base64Width encoded)).run drawing

def render (drawing : Drawing) (rasterizer : Rasterizer) : Drawing × Outcome :=
  if drawing.poisoned then drawing.fail .poisoned
  else
    match rasterizer drawing.canvas drawing.program drawing.context with
    | (canvas, none) => ({ drawing with canvas := canvas }, .done)
    | (canvas, some failure) => Drawing.fail { drawing with canvas := canvas } failure

def call (tools : Tools) (drawing : Drawing) : Call → Drawing × Outcome
  | .instruct instruction => (instruction.plan tools drawing).run drawing
  | .accent accent color => (drawing.accentPlan accent color).run drawing
  | .composite placement picture => drawing.composite tools placement picture
  | .render rasterizer => drawing.render rasterizer
  | .dropProgram => (drawing.dropProgram, .done)
  | .clear => (drawing.clear, .done)
  | .clearError => (drawing.clearError, .done)

/-- Do calls one after the other; failures do not stop them. -/
def calls (tools : Tools) (drawing : Drawing) : List Call → Drawing
  | [] => drawing
  | first :: rest => calls tools (drawing.call tools first).1 rest

end Drawing

end Quill
