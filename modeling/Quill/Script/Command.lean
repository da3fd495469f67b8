import Quill.Drawing.Call

/-!
# Commands

A script is a list of commands.  A command is an instruction, or puts a picture into the
program that is read from a file.
-/

namespace Quill

inductive Command where
  | instruct (instruction : Instruction)
  | composite (placement : Placement) (source : String)

namespace Command

def setting (setting : Setting) : Command := .instruct (.setting setting)

def motion (motion : Motion) : Command := .instruct (.motion motion)

def shape (shape : Shape) : Command := .instruct (.shape shape)

def path (step : Path.Step) : Command := .instruct (.path step)

def segment (mode : Path.Mode) (segment : Path.Segment) : Command :=
  .instruct (.path (.segment mode segment))

def bracket (bracket : Bracket) : Command := .instruct (.bracket bracket)

def source? : Command → Option String
  | .composite _ source => some source
  | .instruct _ => none

end Command

end Quill
