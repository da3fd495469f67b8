import Quill.Context.Basic

/-!
# The stack of contexts

Scopes are nested, and each has a context of its own, which starts as a copy of the one around
it.  The outermost context is never dropped, and only the innermost one changes.
-/

namespace Quill

/-- The context outside all scopes, and those of the open scopes, innermost first. -/
structure ContextStack where
  root : Context := {}
  scopes : List Context := []

namespace ContextStack

/-- The context in force. -/
def current (stack : ContextStack) : Context :=
  stack.scopes.head?.getD stack.root

def depth (stack : ContextStack) : Nat :=
  stack.scopes.length + 1

/-- Change the context in force. -/
def modify (stack : ContextStack) (change : Context → Context) : ContextStack :=
  match stack.scopes with
  | [] => { stack with root := change stack.root }
  | top :: outer => { stack with scopes := change top :: outer }

def push (stack : ContextStack) : ContextStack :=
  { stack with scopes := stack.current :: stack.scopes }

/-- Close the innermost scope, if one is open. -/
def pop? (stack : ContextStack) : Option (Context × ContextStack) :=
  match stack.scopes with
  | [] => none
  | top :: outer => some (top, { stack with scopes := outer })

end ContextStack

end Quill
