import Quill.Files
import Quill.Script.Form

/-!
# Scripts

A script is read from a file or a text and replayed on a drawing, command by command, up to
the first failure.  Pictures are read relative to a base directory; what is wrong with them is
found before the drawing is asked to do anything.
-/

namespace Quill

def parseScript (bytes : ByteArray) : Except Failure (List Command) :=
  match (Json.readBytes bytes).bind (Json.decode (α := List Command)) with
  | some commands => .ok commands
  | none => .error (.validation "parse draw script JSON")

/-- A script out of what reading its file gave.  A directory can be opened but holds no
script. -/
def scriptOfFile (path : String) (file : Except FileError ByteArray) :
    Except Failure (List Command) :=
  match file with
  | .ok bytes => parseScript bytes
  | .error .isADirectory => parseScript .empty
  | .error error =>
    .error (.validation ("open draw script '" ++ path ++ "': " ++ error.message))

def loadPicture (files : FileReader) (base source : String) : Except Failure Picture :=
  if Text.blank source then
    .error (.validation "composite source must be non-empty")
  else
    let path := FileName.join base source
    match files path with
    | .error error =>
      .error (.other ("read composite source '" ++ path ++ "'") [error.message])
    | .ok bytes =>
      match Png.read bytes.toList with
      | .error fault =>
        .error (.other ("decode composite source '" ++ path ++ "'") fault.causes)
      | .ok picture => .ok picture

/-- Do one command.  A failure found before the drawing is called is not remembered by it. -/
def Command.run (tools : Tools) (files : FileReader) (base : String) (drawing : Drawing) :
    Command → Drawing × Outcome
  | .instruct instruction => drawing.call tools (.instruct instruction)
  | .composite placement source =>
    if !placement.hasExtent then
      (drawing, .failed (.validation "composite width/height must be non-zero"))
    else
      match loadPicture files base source with
      | .error failure => (drawing, .failed failure)
      | .ok picture => drawing.call tools (.composite placement picture)

inductive Replayed where
  | done
  | stopped (index : Nat) (failure : Failure)
  | aborted (promise : String)
  deriving DecidableEq, Repr

/-- The message of a command that failed. -/
def Replayed.message (index : Nat) (failure : Failure) : String :=
  "command " ++ toString index ++ ": " ++ failure.message

/-- Do commands in their order, up to the first that fails; `index` counts them. -/
def replayFrom (tools : Tools) (files : FileReader) (base : String) (index : Nat)
    (drawing : Drawing) : List Command → Drawing × Replayed
  | [] => (drawing, .done)
  | command :: rest =>
    match command.run tools files base drawing with
    | (after, .done) => replayFrom tools files base (index + 1) after rest
    | (after, .failed failure) => (after, .stopped index failure)
    | (after, .aborted promise) => (after, .aborted promise)

def replay (tools : Tools) (files : FileReader) (base : String) (drawing : Drawing)
    (commands : List Command) : Drawing × Replayed :=
  replayFrom tools files base 0 drawing commands

end Quill
