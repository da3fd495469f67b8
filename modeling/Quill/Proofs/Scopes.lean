import Mathlib.Data.List.Infix
import Quill.Proofs.Balance
import Quill.Proofs.Lockstep

/-!
# Scopes

A call changes the innermost context, puts a copy of it on the stack or drops it.  The contexts
below stay as they are, so a scope that is closed leaves the stack that it was opened on, whatever
happened inside.
-/

namespace Quill

namespace ContextStack

variable {stack next base : ContextStack}

def toList (stack : ContextStack) : List Context :=
  stack.scopes ++ [stack.root]

theorem toList_injective : Function.Injective toList := by
  intro first second equal
  rcases first with ⟨root, scopes⟩
  rcases second with ⟨root', scopes'⟩
  unfold toList at equal
  obtain ⟨rfl, last⟩ := List.append_inj' equal rfl
  simpa using last

@[simp]
theorem length_toList (stack : ContextStack) : stack.toList.length = stack.depth := by
  simp [toList, depth]

theorem toList_eq_cons (stack : ContextStack) :
    stack.toList = stack.current :: stack.toList.tail := by
  rcases stack with ⟨root, scopes⟩
  cases scopes <;> rfl

theorem current_mem (stack : ContextStack) : stack.current ∈ stack.toList := by
  rw [toList_eq_cons]
  exact List.mem_cons_self

theorem toList_modify (stack : ContextStack) (change : Context → Context) :
    (stack.modify change).toList = change stack.current :: stack.toList.tail := by
  rcases stack with ⟨root, scopes⟩
  cases scopes <;> rfl

@[simp]
theorem current_modify (stack : ContextStack) (change : Context → Context) :
    (stack.modify change).current = change stack.current := by
  rcases stack with ⟨root, scopes⟩
  cases scopes <;> rfl

theorem toList_push (stack : ContextStack) :
    stack.push.toList = stack.current :: stack.toList := rfl

theorem toList_of_pop? {top : Context} (popped : stack.pop? = some (top, next)) :
    next.toList = stack.toList.tail := by
  rcases stack with ⟨root, scopes⟩
  cases scopes <;> cases popped
  rfl

/-- What a call can do to a stack of contexts. -/
inductive Step (stack : ContextStack) : ContextStack → Prop
  | keep : Step stack stack
  | modify (change : Context → Context) : Step stack (stack.modify change)
  | push : Step stack stack.push
  | pop {top : Context} {outer : ContextStack} (popped : stack.pop? = some (top, outer)) :
      Step stack outer

/-- The contexts below the innermost one stay as they are. -/
theorem Step.tail_suffix (step : stack.Step next) : stack.toList.tail <:+ next.toList := by
  cases step with
  | keep => exact List.tail_suffix _
  | modify change =>
      rw [toList_modify]
      exact List.suffix_cons _ _
  | push =>
      rw [toList_push]
      exact (List.tail_suffix _).trans (List.suffix_cons _ _)
  | pop popped => rw [toList_of_pop? popped]

theorem suffix_tail (below : base.toList <:+ stack.toList) (deeper : base.depth < stack.depth) :
    base.toList <:+ stack.toList.tail := by
  rw [toList_eq_cons stack, List.suffix_cons_iff, ← toList_eq_cons] at below
  rcases below with equal | below
  · have lengths := congrArg List.length equal
    rw [length_toList, length_toList] at lengths
    omega
  · exact below

/-- A stack that lies below others keeps lying there as long as they are higher. -/
theorem Step.above (step : stack.Step next) (below : base.toList <:+ stack.toList)
    (deeper : base.depth < stack.depth) : base.toList <:+ next.toList :=
  (suffix_tail below deeper).trans step.tail_suffix

/-- Closing the scope right above a stack leads back to it. -/
theorem eq_of_pop? {top : Context} {outer : ContextStack}
    (popped : stack.pop? = some (top, outer)) (below : base.toList <:+ stack.toList)
    (level : stack.depth = base.depth + 1) : outer = base := by
  have rest := suffix_tail below (by omega)
  rw [← toList_of_pop? popped] at rest
  have lengths : base.toList.length = outer.toList.length := by
    rw [toList_of_pop? popped, List.length_tail, length_toList, length_toList]
    omega
  exact toList_injective (rest.eq_of_length lengths).symm

end ContextStack

section Calls

variable {tools : Tools} {drawing after : Drawing} {call : Call} {outcome : Outcome}

theorem Effect.contexts_step (effect : Effect tools drawing call after outcome)
    (uncleared : call ≠ .clear) : drawing.contexts.Step after.contexts := by
  cases effect with
  | adjusted planned plain => exact .modify _
  | wrote planned plain inner usable =>
      cases inner with
      | context change => exact .modify change
      | nothing | path state => exact .keep
  | opened opens usable =>
      cases opens with
      | scope => exact .push
      | pattern vacant => exact .keep
      | clipPath | defs => exact .keep
  | closed closes usable =>
      cases closes with
      | scope nested =>
          obtain ⟨top, outer, popped, -⟩ := ContextStack.pop?_of_nested nested
          simp only [Change.apply, popped]
          exact .pop popped
      | pattern opened => exact .keep
      | clipPath opened => exact .keep
      | defs opened => exact .keep
  | cleared => exact (uncleared rfl).elim
  | _ => exact .keep

theorem Reachable.contexts_step (reachable : Reachable drawing)
    (called : drawing.call tools call = (after, outcome)) (uncleared : call ≠ .clear) :
    drawing.contexts.Step after.contexts :=
  (reachable.effect called).contexts_step uncleared

theorem Reachable.contexts_above {base : ContextStack} {requests : List Request}
    (reachable : Reachable drawing) (uncleared : ∀ request ∈ requests, request.call ≠ .clear)
    (below : base.toList <:+ drawing.contexts.toList)
    (deeper : ∀ earlier, earlier <+: requests →
      base.depth < (drawing.perform earlier).contexts.depth) :
    base.toList <:+ (drawing.perform requests).contexts.toList := by
  induction requests generalizing drawing with
  | nil => exact below
  | cons request rest ih =>
      obtain ⟨here, later⟩ := List.forall_mem_cons.mp uncleared
      have here : drawing.contexts.Step (drawing.serve request).1.contexts :=
        reachable.contexts_step rfl here
      have now : base.depth < drawing.contexts.depth := deeper [] List.nil_prefix
      refine ih (reachable.of_serve request) later (here.above below now) ?_
      intro earlier before
      exact deeper (request :: earlier) (List.cons_prefix_cons.mpr ⟨rfl, before⟩)

theorem Effect.opens_scope
    (effect : Effect tools drawing (.instruct (.bracket .openScope)) after .done) :
    after.contexts = drawing.contexts.push := by
  rcases effect.bracket_done with ⟨text, change, opens, rfl⟩ | ⟨text, change, closes, _⟩
  · cases opens
    rfl
  · cases closes

theorem Effect.closes_scope
    (effect : Effect tools drawing (.instruct (.bracket .closeScope)) after .done) :
    ∃ top, drawing.contexts.pop? = some (top, after.contexts) := by
  rcases effect.bracket_done with ⟨text, change, opens, _⟩ | ⟨text, change, closes, rfl⟩
  · cases opens
  · cases closes with
    | scope nested =>
        obtain ⟨top, outer, popped, -⟩ := ContextStack.pop?_of_nested nested
        refine ⟨top, ?_⟩
        simp only [Change.apply, popped]

end Calls

/-- A scope that is opened and closed again leaves the stack of contexts as it was, whatever is
called inside; no call but a clearing one touches a context below the innermost; and the outermost
context cannot be closed. -/
theorem scopes_restore_contexts {drawing : Drawing} (reachable : Reachable drawing) :
    (∀ (opening closing : Tools) (inner : List Request) (opened closed : Drawing),
      drawing.call opening (.instruct (.bracket .openScope)) = (opened, .done) →
      (∀ request ∈ inner, request.call ≠ .clear) →
      (∀ earlier, earlier <+: inner →
        opened.contexts.depth ≤ (opened.perform earlier).contexts.depth) →
      (opened.perform inner).contexts.depth = opened.contexts.depth →
      (opened.perform inner).call closing (.instruct (.bracket .closeScope)) = (closed, .done) →
        closed.contexts = drawing.contexts) ∧
      (∀ (tools : Tools) (call : Call) (after : Drawing) (outcome : Outcome),
        call ≠ .clear → drawing.call tools call = (after, outcome) →
          drawing.contexts.toList.tail <:+ after.contexts.toList) ∧
      (drawing.contexts.depth = 1 → drawing.poisoned = false → ∀ tools : Tools,
        ∃ after, drawing.call tools (.instruct (.bracket .closeScope)) =
            (after, .failed .unbalancedContexts) ∧
          after.contexts = drawing.contexts) := by
  refine ⟨?_, ?_, ?_⟩
  · intro opening closing inner opened closed opens uncleared above level closes
    have pushed := (reachable.effect opens).opens_scope
    have openedReachable := reachable.of_call opens
    have deeper : ∀ earlier, earlier <+: inner →
        drawing.contexts.depth < (opened.perform earlier).contexts.depth := by
      intro earlier before
      have higher := above earlier before
      rw [pushed, ContextStack.depth_push] at higher
      omega
    have below : drawing.contexts.toList <:+ opened.contexts.toList := by
      rw [pushed, ContextStack.toList_push]
      exact List.suffix_cons _ _
    have kept := openedReachable.contexts_above uncleared below deeper
    obtain ⟨top, popped⟩ := ((openedReachable.of_perform inner).effect closes).closes_scope
    refine ContextStack.eq_of_pop? popped kept ?_
    rw [level, pushed, ContextStack.depth_push]
  · intro tools call after outcome uncleared called
    exact (reachable.contexts_step called uncleared).tail_suffix
  · intro flat usable tools
    refine ⟨drawing.record .unbalancedContexts, ?_, rfl⟩
    have refused : Bracket.closeScope.plan drawing = .refuse .unbalancedContexts := by
      rw [Bracket.plan, usable, if_neg Bool.false_ne_true, if_pos flat.le]
    exact congrArg (Plan.run drawing) refused

/-- A scope with settings, a nested scope, a pattern and a failed closing inside. -/
theorem scopes_restore_contexts_around_pattern :
    let paint (side : Side) (color : Rgba) : Request :=
      ⟨{}, .instruct (.setting (.paint side color))⟩
    let bracket (edge : Bracket) : Request := ⟨{}, .instruct (.bracket edge)⟩
    let drawing := (Drawing.start {} ⟨64, 64, .empty⟩).perform [paint .fill ⟨255, 0, 0, 255⟩]
    let inner := [paint .fill ⟨0, 0, 255, 255⟩, bracket (.openPattern "p" 0 0 8 8),
      paint .stroke ⟨0, 0, 255, 255⟩, bracket .openScope, bracket .closeDefs,
      bracket .closePattern, paint .fill .black, bracket .closeScope]
    let opened := (drawing.call {} (.instruct (.bracket .openScope))).1
    let closed := ((opened.perform inner).call {} (.instruct (.bracket .closeScope))).1
    (opened.perform inner).context.stroke.color = ⟨0, 0, 255, 255⟩ ∧
      closed.contexts = drawing.contexts := by
  intro paint bracket drawing inner opened closed
  have reachable : Reachable drawing := (Reachable.start {} ⟨64, 64, .empty⟩).of_perform _
  have opens : drawing.call {} (.instruct (.bracket .openScope)) = (opened, .done) :=
    Drawing.call_of_outcome (by decide +kernel)
  have uncleared : ∀ request ∈ inner, request.call ≠ .clear := by
    simp [inner, paint, bracket]
  have above : ∀ earlier ∈ inner.inits,
      opened.contexts.depth ≤ (opened.perform earlier).contexts.depth := by
    decide +kernel
  have level : (opened.perform inner).contexts.depth = opened.contexts.depth := by
    decide +kernel
  have closes : (opened.perform inner).call {} (.instruct (.bracket .closeScope)) =
      (closed, .done) :=
    Drawing.call_of_outcome (by decide +kernel)
  refine ⟨by decide +kernel, ?_⟩
  exact (scopes_restore_contexts reachable).1 {} {} inner opened closed opens uncleared
    (fun earlier before => above earlier ((List.mem_inits _ _).mpr before)) level closes

end Quill
