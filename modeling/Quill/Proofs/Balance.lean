import Quill.Proofs.Plan
import Quill.Proofs.Run

/-!
# Balanced brackets

Scopes, `defs` blocks, clip paths and the open pattern share one indentation, and the last two
share one flag.  In every reachable drawing the indentation is the number of brackets that are
open, of whatever kind and in whatever order they were opened, and settings in force are left
out exactly outside patterns and clip paths.  So a closing line always has an indentation to take
back, also if it fails and has to be undone.  From this follows one list of everything that a
call can do to a reachable drawing; what a run keeps is proved over that list.
-/

namespace Quill

def Drawing.brackets (drawing : Drawing) : Nat :=
  drawing.contexts.depth - 1 + drawing.openDefs + drawing.openClips.length +
    drawing.pattern.isSome.toNat

/-- Brackets are balanced if the indentation counts them and filtering is off inside those that
record a definition. -/
structure Balanced (drawing : Drawing) : Prop where
  indent : drawing.buffer.indent = drawing.brackets
  filtering : drawing.filtering = (drawing.pattern.isNone && drawing.openClips.isEmpty)

/-- Everything that a call can do to a drawing whose brackets are balanced. -/
inductive Effect (tools : Tools) (drawing : Drawing) : Call → Drawing → Outcome → Prop
  | failed {call : Call} {plan : Plan} {failure : Failure}
      (planned : call.plan? tools drawing = some plan) :
      Effect tools drawing call (drawing.record failure) (.failed failure)
  | kept {call : Call} (planned : call.plan? tools drawing = some .keep) (plain : call.Plain) :
      Effect tools drawing call drawing .done
  | adjusted {call : Call} {change : Context → Context}
      (planned : call.plan? tools drawing = some (.adjust change)) (plain : call.Plain) :
      Effect tools drawing call { drawing with contexts := drawing.contexts.modify change } .done
  | wrote {call : Call} {pieces : List Piece} {change : Change}
      (planned : call.plan? tools drawing = some (.write pieces change)) (plain : call.Plain)
      (inner : change.Inner) (usable : drawing.poisoned = false) :
      Effect tools drawing call
        (change.apply { drawing with
          buffer := pieces.foldl (Buffer.wrote drawing.layout) drawing.buffer }) .done
  | opened {bracket : Bracket} {text : String} {change : Change}
      (opens : bracket.Opens drawing text change) (usable : drawing.poisoned = false) :
      Effect tools drawing (.instruct (.bracket bracket))
        (change.apply { drawing with buffer := drawing.buffer.extended (text ++ "\n") }) .done
  | closed {bracket : Bracket} {text : String} {change : Change}
      (closes : bracket.Closes drawing text change) (usable : drawing.poisoned = false) :
      Effect tools drawing (.instruct (.bracket bracket))
        (change.apply { drawing with
          buffer := drawing.buffer.indentOut.extended (text ++ "\n") }) .done
  | aborted {placement : Placement} {picture : Picture} (flat : placement.hasExtent = false) :
      Effect tools drawing (.composite placement picture) drawing (.aborted Placement.promise)
  | refused {rasterizer : Rasterizer} (poisoned : drawing.poisoned = true) :
      Effect tools drawing (.render rasterizer) (drawing.record .poisoned) (.failed .poisoned)
  | rendered {rasterizer : Rasterizer} {canvas : Canvas} (usable : drawing.poisoned = false)
      (draws : rasterizer drawing.canvas drawing.program drawing.context = (canvas, none)) :
      Effect tools drawing (.render rasterizer) { drawing with canvas := canvas } .done
  | misdrawn {rasterizer : Rasterizer} {canvas : Canvas} {failure : Failure}
      (usable : drawing.poisoned = false)
      (draws : rasterizer drawing.canvas drawing.program drawing.context =
        (canvas, some failure)) :
      Effect tools drawing (.render rasterizer)
        (Drawing.record { drawing with canvas := canvas } failure) (.failed failure)
  | dropped : Effect tools drawing .dropProgram drawing.dropProgram .done
  | cleared : Effect tools drawing .clear drawing.clear .done
  | forgotten : Effect tools drawing .clearError drawing.clearError .done

section Effects

variable {tools : Tools} {drawing after : Drawing} {call : Call} {plan : Plan}
  {outcome : Outcome} {failure : Failure}

theorem Bracket.Closes.brackets_pos {bracket : Bracket} {text : String} {change : Change}
    (closes : bracket.Closes drawing text change) : 0 < drawing.brackets := by
  cases closes with
  | scope nested =>
      rw [Drawing.brackets]
      omega
  | pattern opened =>
      rw [Drawing.brackets, opened]
      exact Nat.succ_pos _
  | clipPath opened =>
      rw [Drawing.brackets, opened, List.length_cons]
      omega
  | defs opened =>
      rw [Drawing.brackets]
      omega

/-- A closing line always has an indentation to take back. -/
theorem Balanced.indented (balanced : Balanced drawing) {text : String} {change : Change}
    (planned : call.plan? tools drawing = some (.close text change)) :
    0 < drawing.buffer.indent := by
  rw [balanced.indent]
  rcases Call.plan?_cases planned with ⟨_, inner⟩ | ⟨bracket, _, closing⟩
  · exact inner.elim
  · exact (Bracket.closes_of_plan closing.symm).brackets_pos

theorem Balanced.run_effect (balanced : Balanced drawing)
    (planned : call.plan? tools drawing = some plan) (ran : plan.run drawing = (after, outcome)) :
    Effect tools drawing call after outcome := by
  cases outcome with
  | aborted promise => exact (Plan.run_not_aborted ran).elim
  | failed failure =>
      have indented : ∀ text change, plan = .close text change → 0 < drawing.buffer.indent := by
        rintro text change rfl
        exact balanced.indented planned
      rw [Plan.run_failed indented ran]
      exact .failed planned
  | done =>
      have done := Plan.run_done ran
      rcases Call.plan?_cases planned with ⟨plain, inner⟩ | ⟨bracket, rfl, rfl⟩
      · cases done with
        | keep => exact .kept planned plain
        | adjust change => exact .adjusted planned plain
        | write usable => exact .wrote planned plain inner usable
        | close usable => exact inner.elim
      · rcases bracket.plan_cases drawing with
          ⟨failure, refused⟩ | ⟨pieces, change, written⟩ | ⟨text, change, closing⟩
        · rw [refused] at done
          cases done
        · obtain ⟨text, rfl, opens⟩ := Bracket.opens_of_plan written
          rw [written] at done
          cases done with
          | write usable => exact .opened opens usable
        · rw [closing] at done
          cases done with
          | close usable => exact .closed (Bracket.closes_of_plan closing) usable

theorem Balanced.effect (balanced : Balanced drawing)
    (called : drawing.call tools call = (after, outcome)) :
    Effect tools drawing call after outcome := by
  cases planned : call.plan? tools drawing with
  | some plan =>
      rw [Drawing.call_eq_run planned] at called
      exact balanced.run_effect planned called
  | none =>
      cases call with
      | instruct _ | accent _ _ => cases planned
      | composite placement picture =>
          obtain ⟨flat, aborts⟩ := Drawing.composite_of_unplanned planned
          rw [aborts] at called
          cases called
          exact .aborted flat
      | render rasterizer =>
          simp only [Drawing.call, Drawing.render, Drawing.fail] at called
          split at called
          · rename_i poisoned
            cases called
            exact .refused poisoned
          · rename_i usable
            have usable : drawing.poisoned = false := by simpa using usable
            split at called
            · rename_i canvas draws
              cases called
              exact .rendered usable draws
            · rename_i canvas failure draws
              cases called
              exact .misdrawn usable draws
      | dropProgram =>
          cases called
          exact .dropped
      | clear =>
          cases called
          exact .cleared
      | clearError =>
          cases called
          exact .forgotten

end Effects

section Contexts

variable (stack : ContextStack)

@[simp]
theorem ContextStack.depth_modify (change : Context → Context) :
    (stack.modify change).depth = stack.depth := by
  rcases stack with ⟨root, scopes⟩
  cases scopes <;> rfl

@[simp]
theorem ContextStack.depth_push : stack.push.depth = stack.depth + 1 :=
  rfl

/-- There is a context to drop whenever the root is not the only one. -/
theorem ContextStack.pop?_of_nested {stack : ContextStack} (nested : 1 < stack.depth) :
    ∃ top outer, stack.pop? = some (top, outer) ∧ outer.depth + 1 = stack.depth := by
  rcases stack with ⟨root, scopes⟩
  cases scopes with
  | nil => exact absurd nested (Nat.lt_irrefl 1)
  | cons top outer => exact ⟨top, ⟨root, outer⟩, rfl, rfl⟩

end Contexts

section Keeping

variable {tools : Tools} {drawing after : Drawing} {call : Call} {outcome : Outcome}
  {bracket : Bracket} {text : String} {change : Change} {buffer : Buffer}

theorem balanced_start (settings : Settings) (canvas : Canvas) :
    Balanced (Drawing.start settings canvas) :=
  ⟨rfl, rfl⟩

theorem Balanced.inner (balanced : Balanced drawing) (inner : change.Inner)
    (indent : buffer.indent = drawing.buffer.indent) :
    Balanced (change.apply { drawing with buffer := buffer }) := by
  cases inner with
  | nothing => exact ⟨indent.trans balanced.indent, balanced.filtering⟩
  | path state => exact ⟨indent.trans balanced.indent, balanced.filtering⟩
  | context change =>
      refine ⟨?_, balanced.filtering⟩
      rw [Drawing.brackets, Change.apply, ContextStack.depth_modify]
      exact indent.trans balanced.indent

theorem Balanced.opened (balanced : Balanced drawing)
    (opens : bracket.Opens drawing text change) (indent : buffer.indent = drawing.buffer.indent) :
    Balanced (change.apply { drawing with buffer := buffer }) := by
  have counted := indent.trans balanced.indent
  rw [Drawing.brackets] at counted
  cases opens with
  | scope =>
      refine ⟨?_, balanced.filtering⟩
      simp only [Change.apply, Drawing.brackets, Buffer.indentIn, ContextStack.depth_push, counted]
      have : 0 < drawing.contexts.depth := Nat.succ_pos _
      omega
  | pattern vacant =>
      refine ⟨?_, rfl⟩
      simp only [Change.apply, Drawing.brackets, Buffer.indentIn, counted, vacant]
      rfl
  | clipPath =>
      refine ⟨?_, ?_⟩
      · simp only [Change.apply, Drawing.brackets, Buffer.indentIn, counted, List.length_cons]
        omega
      · simp [Change.apply]
  | defs =>
      refine ⟨?_, balanced.filtering⟩
      simp only [Change.apply, Drawing.brackets, Buffer.indentIn, counted]
      omega

theorem Balanced.closed (balanced : Balanced drawing)
    (closes : bracket.Closes drawing text change)
    (indent : buffer.indent + 1 = drawing.buffer.indent) :
    Balanced (change.apply { drawing with buffer := buffer }) := by
  have counted := indent.trans balanced.indent
  rw [Drawing.brackets] at counted
  cases closes with
  | scope nested =>
      obtain ⟨top, outer, popped, depth⟩ := ContextStack.pop?_of_nested nested
      refine ⟨?_, ?_⟩
      · simp only [Change.apply, popped, Drawing.brackets]
        omega
      · simp only [Change.apply, popped]
        exact balanced.filtering
  | pattern opened =>
      refine ⟨?_, rfl⟩
      simp only [Change.apply, Drawing.refilter, Drawing.brackets]
      rw [opened] at counted
      simpa using counted
  | clipPath opened =>
      refine ⟨?_, rfl⟩
      simp only [Change.apply, Drawing.refilter, Drawing.brackets]
      rw [opened, List.length_cons] at counted
      omega
  | defs opened =>
      refine ⟨?_, balanced.filtering⟩
      simp only [Change.apply, Drawing.brackets]
      omega

theorem Balanced.record (balanced : Balanced drawing) (failure : Failure) :
    Balanced (drawing.record failure) :=
  ⟨balanced.indent, balanced.filtering⟩

theorem Effect.balanced (effect : Effect tools drawing call after outcome)
    (balanced : Balanced drawing) : Balanced after := by
  cases effect with
  | failed planned => exact balanced.record _
  | kept planned plain => exact balanced
  | adjusted planned plain =>
      have same : drawing.buffer.indent = drawing.buffer.indent := rfl
      exact balanced.inner (.context _) same
  | wrote planned plain inner usable =>
      obtain ⟨added, grows⟩ := Buffer.wroteEach_grows drawing.layout drawing.buffer _
      exact balanced.inner inner grows.indent
  | opened opens usable => exact balanced.opened opens rfl
  | closed closes usable =>
      have positive : 0 < drawing.buffer.indent := by
        rw [balanced.indent]
        exact closes.brackets_pos
      exact balanced.closed closes (Nat.sub_add_cancel positive)
  | aborted flat => exact balanced
  | refused poisoned => exact balanced.record _
  | rendered usable draws => exact ⟨balanced.indent, balanced.filtering⟩
  | misdrawn usable draws => exact ⟨balanced.indent, balanced.filtering⟩
  | dropped =>
      refine ⟨?_, ?_⟩
      · simp only [Drawing.dropProgram, Drawing.brackets, Option.isSome_map]
        exact balanced.indent
      · simp only [Drawing.dropProgram, Option.isNone_map]
        exact balanced.filtering
  | cleared => exact ⟨rfl, rfl⟩
  | forgotten => exact ⟨balanced.indent, balanced.filtering⟩

/-- A bracket that is done has written its opening line or its closing line. -/
theorem Effect.bracket_done {bracket : Bracket}
    (effect : Effect tools drawing (.instruct (.bracket bracket)) after .done) :
    (∃ text change, bracket.Opens drawing text change ∧
        after = change.apply { drawing with buffer := drawing.buffer.extended (text ++ "\n") }) ∨
      ∃ text change, bracket.Closes drawing text change ∧
        after = change.apply { drawing with
          buffer := drawing.buffer.indentOut.extended (text ++ "\n") } := by
  cases effect with
  | kept planned plain => exact (plain _ rfl).elim
  | adjusted planned plain => exact (plain _ rfl).elim
  | wrote planned plain inner usable => exact (plain _ rfl).elim
  | opened opens usable => exact .inl ⟨_, _, opens, rfl⟩
  | closed closes usable => exact .inr ⟨_, _, closes, rfl⟩

theorem Reachable.balanced (reachable : Reachable drawing) : Balanced drawing :=
  reachable.invariant balanced_start fun called balanced =>
    (balanced.effect called).balanced balanced

theorem Reachable.effect (reachable : Reachable drawing)
    (called : drawing.call tools call = (after, outcome)) :
    Effect tools drawing call after outcome :=
  reachable.balanced.effect called

end Keeping

/-- In every reachable drawing the indentation counts the open brackets of all kinds, settings in
force are left out exactly while no definition is recorded, and a closing line takes back an
indentation that is there. -/
theorem indentation_counts_brackets {drawing : Drawing} (reachable : Reachable drawing) :
    drawing.buffer.indent =
        drawing.contexts.depth - 1 + drawing.openDefs + drawing.openClips.length +
          (if drawing.pattern.isSome then 1 else 0) ∧
      (drawing.filtering = true ↔ drawing.pattern = none ∧ drawing.openClips = []) ∧
      ∀ (tools : Tools) (call : Call) (text : String) (change : Change),
        call.plan? tools drawing = some (.close text change) →
          drawing.buffer.indentOut.indent + 1 = drawing.buffer.indent := by
  have balanced := reachable.balanced
  refine ⟨?_, ?_, ?_⟩
  · rw [balanced.indent, Drawing.brackets]
    cases drawing.pattern with
    | none => rfl
    | some capture => rfl
  · rw [balanced.filtering, Bool.and_eq_true, Option.isNone_iff_eq_none, List.isEmpty_iff]
  · intro tools call text change planned
    exact Nat.sub_add_cancel (balanced.indented planned)

/-- Brackets of all four kinds that cross, with a failed closing between them. -/
theorem indentation_counts_crossing_brackets :
    ∃ drawing, Reachable drawing ∧ drawing.buffer.indent = 3 ∧ drawing.filtering = false := by
  have reachable := (Reachable.start {} ⟨64, 64, .empty⟩).of_calls {}
    ([.openDefs, .openScope, .openClipPath "c", .closeDefs, .closeDefs,
      .openPattern "p" 0 0 8 8].map fun bracket => .instruct (.bracket bracket))
  refine ⟨_, reachable, ?_, ?_⟩
  · exact (indentation_counts_brackets reachable).1.trans (by decide +kernel)
  · rw [Bool.eq_false_iff, ne_eq, (indentation_counts_brackets reachable).2.1]
    decide +kernel

end Quill
