import Quill.Json.Codec
import Quill.Number.Significant

/-!
# Path data

A path literal is a run of commands, each a letter with its coordinates; a lower-case letter
means coordinates relative to the current point.  A command that repeats the operation and the
mode of the one before leaves its letter out.  Closing a subpath has no coordinates, so its
letter always stands.
-/

namespace Quill.Path

/-- The kinds of path commands; `none` stands for a path without any command yet. -/
inductive Operation where
  | none
  | close
  | curve
  | quadratic
  | smoothQuadratic
  | smoothCurve
  | arc
  | horizontal
  | line
  | vertical
  | move
  deriving DecidableEq, Repr

/-- How coordinates are meant; commands without a mode are absolute. -/
inductive Mode where
  | unset
  | absolute
  | relative
  deriving DecidableEq, Repr

instance : Json.Keyword Mode where
  all := [.unset, .absolute, .relative]
  name
    | .unset => "none"
    | .absolute => "absolute"
    | .relative => "relative"

/-- The mode that a command is written and remembered in. -/
def Mode.orAbsolute : Mode → Mode
  | .unset => .absolute
  | mode => mode

namespace Operation

def upperLetter? : Operation → Option Char
  | .none => Option.none
  | .close => some 'Z'
  | .curve => some 'C'
  | .quadratic => some 'Q'
  | .smoothQuadratic => some 'T'
  | .smoothCurve => some 'S'
  | .arc => some 'A'
  | .horizontal => some 'H'
  | .line => some 'L'
  | .vertical => some 'V'
  | .move => some 'M'

/-- The letter of an operation, in lower case for relative coordinates. -/
def letter? (operation : Operation) (mode : Mode) : Option Char :=
  operation.upperLetter?.map fun letter =>
    if mode = .relative then letter.toLower else letter

end Operation

/-- What stands before the coordinates of a command. -/
inductive Token where
  | first (letter : Char)
  | command (letter : Char)
  | continued
  deriving DecidableEq, Repr

/-- Only the first command of a path has no space before it. -/
def Token.text : Token → String
  | .first letter => String.ofList [letter]
  | .command letter => String.ofList [' ', letter]
  | .continued => " "

/-- The last command of the open path. -/
structure State where
  operation : Operation := .none
  mode : Mode := .unset
  deriving DecidableEq, Repr

namespace State

/-- The token of a command that follows the last one. -/
def token (state : State) (operation : Operation) (mode : Mode) : Token :=
  if operation ≠ .close ∧ state = ⟨operation, mode⟩ then .continued
  else
    let letter := (operation.letter? mode).getD '?'
    if state.operation = .none then .first letter else .command letter

def advance (_ : State) (operation : Operation) (mode : Mode) : State :=
  ⟨operation, mode⟩

/-- The mode of a closing command: that of the last command, or absolute. -/
def closeMode (state : State) : Mode :=
  if state.mode = .relative then .relative else .absolute

end State

/-- A path command with its arguments, apart from its mode. -/
inductive Segment where
  | move (x y : Float)
  | line (x y : Float)
  | horizontal (x : Float)
  | vertical (y : Float)
  | curve (x1 y1 x2 y2 x y : Float)
  | quadratic (x1 y1 x y : Float)
  | smoothQuadratic (x y : Float)
  | smoothCurve (x2 y2 x y : Float)
  | arc (rx ry rotation : Float) (large sweep : Bool) (x y : Float)

def flag (value : Bool) : String :=
  if value then "1" else "0"

namespace Segment

def operation : Segment → Operation
  | .move .. => .move
  | .line .. => .line
  | .horizontal .. => .horizontal
  | .vertical .. => .vertical
  | .curve .. => .curve
  | .quadratic .. => .quadratic
  | .smoothQuadratic .. => .smoothQuadratic
  | .smoothCurve .. => .smoothCurve
  | .arc .. => .arc

/-- The argument groups of a command, which are separated by spaces. -/
def groups : Segment → List String
  | .move x y | .line x y | .smoothQuadratic x y => [Number.coordinatePair x y]
  | .horizontal x => [Number.coordinate x]
  | .vertical y => [Number.coordinate y]
  | .curve x1 y1 x2 y2 x y =>
    [Number.coordinatePair x1 y1, Number.coordinatePair x2 y2, Number.coordinatePair x y]
  | .quadratic x1 y1 x y => [Number.coordinatePair x1 y1, Number.coordinatePair x y]
  | .smoothCurve x2 y2 x y => [Number.coordinatePair x2 y2, Number.coordinatePair x y]
  | .arc rx ry rotation large sweep x y =>
    [Number.coordinatePair rx ry, Number.coordinate rotation, flag large, flag sweep,
      Number.coordinatePair x y]

def coordinates (segment : Segment) : String :=
  " ".intercalate segment.groups

end Segment

inductive Step where
  | start
  | finish
  | close
  | segment (mode : Mode) (segment : Segment)

end Quill.Path
