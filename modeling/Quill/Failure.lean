/-!
# Failures

Every way in which a drawing call, a script or a file operation can fail, its message, and how
a caller should treat it.
-/

namespace Quill

/-- The kinds of named definitions. -/
inductive Definition where
  | pattern
  | clipPath
  | defs
  deriving DecidableEq, Repr

def Definition.word : Definition → String
  | .pattern => "pattern"
  | .clipPath => "clip-path"
  | .defs => "defs"

/-- How a caller should treat a failure. -/
inductive Severity where
  | contract
  | resource
  | recoverable
  deriving DecidableEq, Repr

/-- Why a call failed.  `other` holds a message and what lies behind it, outermost first. -/
inductive Failure where
  | unbalancedContexts
  | missingArgument (what : String)
  | outOfMemory
  | poisoned
  | unknownColor (name : String)
  | undefinedReference (id : String)
  | notARelativeUrl (url : String)
  | patternAlreadyOpen (id : String)
  | unbalancedDefinition (kind : Definition)
  | format (reason : String)
  | validation (reason : String)
  | other (message : String) (causes : List String)
  deriving DecidableEq, Repr

namespace Failure

def message : Failure → String
  | .unbalancedContexts => "contract error: unbalanced graphic-context push/pop"
  | .missingArgument what => "contract error: missing required argument `" ++ what ++ "`"
  | .outOfMemory => "resource error: unable to grow instruction buffer"
  | .poisoned => "resource error: wand is unusable after an allocation failure"
  | .unknownColor name => "draw error: unrecognized color `" ++ name ++ "`"
  | .undefinedReference id => "draw error: reference to undefined id `" ++ id ++ "`"
  | .notARelativeUrl url => "draw error: not a relative url `" ++ url ++ "`"
  | .patternAlreadyOpen id => "draw error: already pushing pattern definition `" ++ id ++ "`"
  | .unbalancedDefinition kind =>
    "draw error: not currently pushing a " ++ kind.word ++ " definition"
  | .format reason => "format error: " ++ reason
  | .validation reason => "validation error: " ++ reason
  | .other message _ => message

/-- What lies behind a failure, outermost first. -/
def causes : Failure → List String
  | .other _ causes => causes
  | _ => []

/-- Misuse of the interface is a contract failure, exhausted room a resource failure; after
any other failure the drawing goes on. -/
def severity : Failure → Severity
  | .unbalancedContexts | .missingArgument _ => .contract
  | .outOfMemory | .poisoned => .resource
  | _ => .recoverable

end Failure

end Quill
