import Quill.Drawing.Basic

/-!
# Plans

A call is first turned into a plan, which depends on the drawing but does not change it, and
the plan is then carried out.  A plan's change of state happens only behind its writing, so a
call that fails leaves everything but the memory of the failure as it was.
-/

namespace Quill

/-- A change of state that goes with an instruction. -/
inductive Change where
  | nothing
  | context (change : Context → Context)
  | path (state : Path.State)
  | openScope
  | closeScope
  | openPattern (id : String) (bounds : PatternBounds)
  | closePattern (capture : Capture) (body : String)
  | openClipPath (id : String)
  | closeClipPath (id : String) (outer : List String)
  | openDefs
  | closeDefs

namespace Change

/-- Make a change.  The instruction that goes with it has been written already. -/
def apply (drawing : Drawing) : Change → Drawing
  | .nothing => drawing
  | .context change => { drawing with contexts := drawing.contexts.modify change }
  | .path state => { drawing with path := state }
  | .openScope =>
    { drawing with contexts := drawing.contexts.push, buffer := drawing.buffer.indentIn }
  | .closeScope =>
    match drawing.contexts.pop? with
    | some (_, outer) => { drawing with contexts := outer }
    | none => drawing
  | .openPattern id bounds =>
    { drawing with
      buffer := drawing.buffer.indentIn
      pattern := some ⟨id, drawing.buffer.size, bounds⟩
      filtering := false }
  | .closePattern capture body =>
    Drawing.refilter {
      drawing with
      canvas := drawing.canvas.publish drawing.settings.geometryKey capture body
      pattern := none }
  | .openClipPath id =>
    { drawing with
      buffer := drawing.buffer.indentIn
      openClips := id :: drawing.openClips
      filtering := false }
  | .closeClipPath id outer =>
    Drawing.refilter {
      drawing with
      openClips := outer
      clipPaths := drawing.clipPaths.insert id () }
  | .openDefs =>
    { drawing with buffer := drawing.buffer.indentIn, openDefs := drawing.openDefs + 1 }
  | .closeDefs => { drawing with openDefs := drawing.openDefs - 1 }

end Change

/-- What a call does: it is refused, changes nothing, changes the context without an
instruction, writes an instruction, or writes the line that closes a bracket. -/
inductive Plan where
  | refuse (failure : Failure)
  | keep
  | adjust (change : Context → Context)
  | write (pieces : List Piece) (change : Change)
  | close (line : String) (change : Change)

namespace Plan

def line (text : String) (change : Change := .nothing) : Plan :=
  .write [.plain (text ++ "\n")] change

/-- Go on with an argument that was checked, or refuse the call. -/
def checked (argument : Except Failure α) (plan : α → Plan) : Plan :=
  match argument with
  | .ok value => plan value
  | .error failure => .refuse failure

/-- Carry out a plan.  The line that closes a bracket stands one level further out than what
the bracket holds. -/
def run (drawing : Drawing) : Plan → Drawing × Outcome
  | .refuse failure => drawing.fail failure
  | .keep => (drawing, .done)
  | .adjust change => ({ drawing with contexts := drawing.contexts.modify change }, .done)
  | .write pieces change =>
    if drawing.poisoned then drawing.fail .poisoned
    else
      match drawing.buffer.putAll drawing.layout pieces with
      | (buffer, .ok _) => (change.apply { drawing with buffer := buffer }, .done)
      | (buffer, .error failure) => Drawing.fail { drawing with buffer := buffer } failure
  | .close text change =>
    if drawing.poisoned then drawing.fail .poisoned
    else
      match drawing.buffer.indentOut.append drawing.layout (text ++ "\n") with
      | (buffer, .ok _) => (change.apply { drawing with buffer := buffer }, .done)
      | (buffer, .error failure) => Drawing.fail { drawing with buffer := buffer.indentIn } failure

end Plan

namespace Drawing

/-- Refuse an argument that is blank. -/
def require (what value : String) : Except Failure String :=
  if Text.blank value then .error (.missingArgument what) else .ok value

def resolveColor (tools : Tools) (name : String) : Except Failure Rgba := do
  let name ← require "color" name
  match tools.resolve name with
  | some color => .ok color
  | none => .error (.unknownColor name)

/-- The pattern that a reference `#id` names; it has to be on the canvas. -/
def patternReference (drawing : Drawing) (url : String) : Except Failure String := do
  let url ← require "url" url
  match url.toList with
  | '#' :: characters =>
    let id := String.ofList characters
    if (drawing.canvas.artifact? (patternKey id)).isSome then .ok id
    else .error (.undefinedReference id)
  | _ => .error (.notARelativeUrl url)

/-- Write a setting, unless settings in force are left out and this one is in force. -/
def update (drawing : Drawing) (differs : Bool) (text : String) (change : Context → Context) :
    Plan :=
  if drawing.filtering && !differs then .keep else .line text (.context change)

/-- Store a setting; if it has a spelling, write it too. -/
def updateSpelled (drawing : Drawing) (differs : Bool) (word : String)
    (spelling : Option String) (change : Context → Context) : Plan :=
  if drawing.filtering && !differs then .keep
  else
    match spelling with
    | some text => .line (word ++ " " ++ text) (.context change)
    | none => .adjust change

end Drawing

end Quill
