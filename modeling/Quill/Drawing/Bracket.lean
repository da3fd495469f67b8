import Quill.Drawing.Plan

/-!
# Brackets

Scopes, patterns, clip paths and `defs` blocks are opened and closed by instructions, and
what stands between is indented.  Each kind has to be closed as often as it was opened, but
the kinds may cross.
-/

namespace Quill

/-- The opening or closing of a bracket. -/
inductive Bracket where
  | openScope
  | closeScope
  | openPattern (id : String) (x y width height : Float)
  | closePattern
  | openClipPath (id : String)
  | closeClipPath
  | openDefs
  | closeDefs

/-- The plan of a bracket.  Closing asks first whether the drawing can be used, and then
whether there is something to close. -/
def Bracket.plan (drawing : Drawing) : Bracket → Plan
  | .openScope => .line "push graphic-context" .openScope
  | .closeScope =>
    if drawing.poisoned then .refuse .poisoned
    else if drawing.contexts.depth ≤ 1 then .refuse .unbalancedContexts
    else .close "pop graphic-context" .closeScope
  | .openPattern id x y width height =>
    .checked (Drawing.require "pattern id" id) fun id =>
      match drawing.pattern with
      | some capture => .refuse (.patternAlreadyOpen capture.id)
      | none =>
        .line
          ("push pattern " ++ id ++ " " ++ Number.coordinatePair x y ++ " " ++
            Number.coordinatePair width height)
          (.openPattern id (.ofRectangle x y width height))
  | .closePattern =>
    if drawing.poisoned then .refuse .poisoned
    else
      match drawing.pattern with
      | none => .refuse (.unbalancedDefinition .pattern)
      | some capture =>
        .close "pop pattern" (.closePattern capture (drawing.buffer.since capture.offset))
  | .openClipPath id =>
    .checked (Drawing.require "clip-path id" id) fun id =>
      .line ("push clip-path " ++ id) (.openClipPath id)
  | .closeClipPath =>
    if drawing.poisoned then .refuse .poisoned
    else
      match drawing.openClips with
      | [] => .refuse (.unbalancedDefinition .clipPath)
      | id :: outer => .close "pop clip-path" (.closeClipPath id outer)
  | .openDefs => .line "push defs" .openDefs
  | .closeDefs =>
    if drawing.poisoned then .refuse .poisoned
    else if drawing.openDefs = 0 then .refuse (.unbalancedDefinition .defs)
    else .close "pop defs" .closeDefs

end Quill
