import Quill.Proofs.Growing
import Quill.Drawing.Call

/-!
# What plans do

Every call that writes does so by a plan.  The plans of brackets are told apart from all others,
which leave brackets alone.  A plan that is carried out makes its change behind what it writes;
one that fails changes nothing, as long as what it closes has been indented.
-/

namespace Quill

/-- A change that leaves brackets alone. -/
inductive Change.Inner : Change → Prop
  | nothing : Inner .nothing
  | context (change : Context → Context) : Inner (.context change)
  | path (state : Path.State) : Inner (.path state)

/-- The line and the change by which a bracket is opened. -/
inductive Bracket.Opens (drawing : Drawing) : Bracket → String → Change → Prop
  | scope : Opens drawing .openScope "push graphic-context" .openScope
  | pattern {id : String} {x y width height : Float} (vacant : drawing.pattern = none) :
      Opens drawing (.openPattern id x y width height)
        ("push pattern " ++ id ++ " " ++ Number.coordinatePair x y ++ " " ++
          Number.coordinatePair width height)
        (.openPattern id (.ofRectangle x y width height))
  | clipPath {id : String} :
      Opens drawing (.openClipPath id) ("push clip-path " ++ id) (.openClipPath id)
  | defs : Opens drawing .openDefs "push defs" .openDefs

/-- The line and the change by which a bracket is closed. -/
inductive Bracket.Closes (drawing : Drawing) : Bracket → String → Change → Prop
  | scope (nested : 1 < drawing.contexts.depth) :
      Closes drawing .closeScope "pop graphic-context" .closeScope
  | pattern {capture : Capture} (opened : drawing.pattern = some capture) :
      Closes drawing .closePattern "pop pattern"
        (.closePattern capture (drawing.buffer.since capture.offset))
  | clipPath {id : String} {outer : List String} (opened : drawing.openClips = id :: outer) :
      Closes drawing .closeClipPath "pop clip-path" (.closeClipPath id outer)
  | defs (opened : 0 < drawing.openDefs) : Closes drawing .closeDefs "pop defs" .closeDefs

def Plan.Inner : Plan → Prop
  | .write _ change => change.Inner
  | .close _ _ => False
  | .refuse _ | .keep | .adjust _ => True

/-- A change touches neither the settings nor the program, the usability or the memory of
failures. -/
theorem Change.apply_frame (change : Change) (drawing : Drawing) :
    (change.apply drawing).settings = drawing.settings ∧
      (change.apply drawing).program = drawing.program ∧
      (change.apply drawing).poisoned = drawing.poisoned ∧
      (change.apply drawing).lastError = drawing.lastError := by
  cases change with
  | closeScope =>
      rw [apply]
      split <;> exact ⟨rfl, rfl, rfl, rfl⟩
  | _ => exact ⟨rfl, rfl, rfl, rfl⟩

section Plans

variable {drawing : Drawing}

theorem Plan.checked_inner {α : Type} {argument : Except Failure α} {plan : α → Plan}
    (inner : ∀ value, (plan value).Inner) : (Plan.checked argument plan).Inner := by
  cases argument with
  | error failure => trivial
  | ok value => exact inner value

theorem Drawing.update_inner (differs : Bool) (text : String) (change : Context → Context) :
    (drawing.update differs text change).Inner := by
  rw [update]
  split
  · trivial
  · exact .context change

theorem Drawing.updateSpelled_inner (differs : Bool) (word : String) (spelling : Option String)
    (change : Context → Context) :
    (drawing.updateSpelled differs word spelling change).Inner := by
  unfold updateSpelled
  split
  · trivial
  cases spelling with
  | none => trivial
  | some text => exact .context change

theorem Setting.plan_inner (tools : Tools) (setting : Setting) :
    (setting.plan tools drawing).Inner := by
  cases setting with
  | paintName side name => exact Plan.checked_inner fun _ => Drawing.update_inner ..
  | paintPattern side url => exact Plan.checked_inner fun _ => Drawing.update_inner ..
  | accentName accent name => exact Plan.checked_inner fun _ => Drawing.update_inner ..
  | label index text => exact Plan.checked_inner fun _ => Drawing.update_inner ..
  | clipPath id =>
      refine Plan.checked_inner fun name => ?_
      rw [Drawing.clipPathPlan]
      split
      · exact Drawing.update_inner ..
      · trivial
  | bounds rectangle => trivial
  | gravity anchor => exact Drawing.updateSpelled_inner ..
  | alignment side => exact Drawing.updateSpelled_inner ..
  | direction run => exact Drawing.updateSpelled_inner ..
  | _ => exact Drawing.update_inner ..

theorem Motion.plan_inner (motion : Motion) : motion.plan.Inner := by
  rw [plan]
  split
  · trivial
  · exact .context _

theorem Path.Step.plan_inner (step : Path.Step) : (step.plan drawing).Inner := by
  cases step <;> exact .path _

/-- A bracket is opened by one line. -/
theorem Bracket.opens_of_plan {bracket : Bracket} {pieces : List Piece} {change : Change}
    (planned : bracket.plan drawing = .write pieces change) :
    ∃ text, pieces = [.plain (text ++ "\n")] ∧ bracket.Opens drawing text change := by
  cases bracket with
  | openScope =>
      cases planned
      exact ⟨_, rfl, .scope⟩
  | openPattern id x y width height =>
      simp only [plan, Drawing.require] at planned
      split at planned
      · cases planned
      simp only [Plan.checked] at planned
      cases pattern : drawing.pattern with
      | none =>
          rw [pattern] at planned
          cases planned
          exact ⟨_, rfl, .pattern pattern⟩
      | some capture =>
          rw [pattern] at planned
          cases planned
  | openClipPath id =>
      simp only [plan, Drawing.require] at planned
      split at planned
      · cases planned
      · cases planned
        exact ⟨_, rfl, .clipPath⟩
  | openDefs =>
      cases planned
      exact ⟨_, rfl, .defs⟩
  | closeScope | closePattern | closeClipPath | closeDefs =>
      simp only [plan] at planned
      grind

/-- A bracket is closed only if one of its kind is open. -/
theorem Bracket.closes_of_plan {bracket : Bracket} {text : String} {change : Change}
    (planned : bracket.plan drawing = .close text change) :
    bracket.Closes drawing text change := by
  cases bracket with
  | closeScope =>
      simp only [plan] at planned
      split at planned
      · cases planned
      split at planned
      · cases planned
      · rename_i nested
        cases planned
        exact .scope (by omega)
  | closePattern =>
      simp only [plan] at planned
      split at planned
      · cases planned
      split at planned
      · cases planned
      · rename_i capture opened
        cases planned
        exact .pattern opened
  | closeClipPath =>
      simp only [plan] at planned
      split at planned
      · cases planned
      split at planned
      · cases planned
      · rename_i id outer opened
        cases planned
        exact .clipPath opened
  | closeDefs =>
      simp only [plan] at planned
      split at planned
      · cases planned
      split at planned
      · cases planned
      · rename_i opened
        cases planned
        exact .defs (Nat.pos_of_ne_zero opened)
  | openScope | openDefs => cases planned
  | openPattern id x y width height =>
      simp only [plan, Plan.checked] at planned
      grind [Plan.line]
  | openClipPath id =>
      simp only [plan, Plan.checked] at planned
      grind [Plan.line]

/-- A bracket is refused, or it writes a line. -/
theorem Bracket.plan_cases (bracket : Bracket) (drawing : Drawing) :
    (∃ failure, bracket.plan drawing = .refuse failure) ∨
      (∃ pieces change, bracket.plan drawing = .write pieces change) ∨
        ∃ text change, bracket.plan drawing = .close text change := by
  cases planned : bracket.plan drawing with
  | refuse failure => exact .inl ⟨failure, rfl⟩
  | write pieces change => exact .inr (.inl ⟨pieces, change, rfl⟩)
  | close text change => exact .inr (.inr ⟨text, change, rfl⟩)
  | keep | adjust change =>
      cases bracket <;> simp only [plan, Plan.checked, Plan.line] at planned <;> grind

end Plans

/-- The plan of a call.  Calls on the drawing as a whole have none, nor has a composite that
breaks its promise. -/
def Call.plan? (tools : Tools) (drawing : Drawing) : Call → Option Plan
  | .instruct instruction => some (instruction.plan tools drawing)
  | .accent kind color => some (drawing.accentPlan kind color)
  | .composite placement picture =>
    if !placement.hasExtent then none
    else if drawing.poisoned then some (.refuse .poisoned)
    else
      match tools.encode picture with
      | .error failure => some (.refuse failure)
      | .ok encoded => some (.line (placement.text drawing.settings.base64Width encoded))
  | .render _ | .dropProgram | .clear | .clearError => none

/-- A call that neither opens nor closes a bracket. -/
def Call.Plain (call : Call) : Prop :=
  ∀ bracket, call ≠ .instruct (.bracket bracket)

/-- What carrying out a plan without failure makes of a drawing. -/
inductive Plan.Done (drawing : Drawing) : Plan → Drawing → Prop
  | keep : Done drawing .keep drawing
  | adjust (change : Context → Context) :
      Done drawing (.adjust change)
        { drawing with contexts := drawing.contexts.modify change }
  | write {pieces : List Piece} {change : Change} (usable : drawing.poisoned = false) :
      Done drawing (.write pieces change)
        (change.apply { drawing with
          buffer := pieces.foldl (Buffer.wrote drawing.layout) drawing.buffer })
  | close {text : String} {change : Change} (usable : drawing.poisoned = false) :
      Done drawing (.close text change)
        (change.apply { drawing with
          buffer := drawing.buffer.indentOut.extended (text ++ "\n") })

section Runs

variable {tools : Tools} {drawing after : Drawing} {call : Call} {plan : Plan}
  {outcome : Outcome} {failure : Failure}

theorem Drawing.call_eq_run (planned : call.plan? tools drawing = some plan) :
    drawing.call tools call = plan.run drawing := by
  cases call with
  | instruct instruction =>
      cases planned
      rfl
  | accent kind color =>
      cases planned
      rfl
  | composite placement picture =>
      simp only [Call.plan?] at planned
      simp only [Drawing.call, Drawing.composite]
      split at planned
      · cases planned
      rename_i extended
      rw [if_neg extended]
      split at planned
      · rename_i poisoned
        cases planned
        rw [if_pos poisoned, Plan.run]
      rename_i usable
      rw [if_neg usable]
      cases encoded : tools.encode picture with
      | error failure =>
          simp only [encoded] at planned ⊢
          cases planned
          rfl
      | ok encodedPicture =>
          simp only [encoded] at planned ⊢
          cases planned
          rfl
  | render _ | dropProgram | clear | clearError => cases planned

/-- A composite without a plan breaks its promise. -/
theorem Drawing.composite_of_unplanned {placement : Placement} {picture : Picture}
    (unplanned : (Call.composite placement picture).plan? tools drawing = none) :
    placement.hasExtent = false ∧
      drawing.call tools (.composite placement picture) =
        (drawing, .aborted Placement.promise) := by
  cases extended : placement.hasExtent with
  | false =>
      refine ⟨rfl, ?_⟩
      rw [Drawing.call, Drawing.composite, extended]
      rfl
  | true =>
      simp only [Call.plan?, extended] at unplanned
      grind

theorem Call.composite_plan_cases {placement : Placement} {picture : Picture}
    (planned : (Call.composite placement picture).plan? tools drawing = some plan) :
    plan = .refuse .poisoned ∨
      (∃ failure, tools.encode picture = .error failure ∧ plan = .refuse failure) ∨
        ∃ encoded, plan = .line (placement.text drawing.settings.base64Width encoded) := by
  simp only [plan?] at planned
  split at planned
  · cases planned
  split at planned
  · cases planned
    exact .inl rfl
  split at planned
  · rename_i failure refused
    cases planned
    exact .inr (.inl ⟨failure, refused, rfl⟩)
  · rename_i encoded written
    cases planned
    exact .inr (.inr ⟨encoded, rfl⟩)

/-- The plan of a plain call leaves brackets alone. -/
theorem Call.plan?_cases (planned : call.plan? tools drawing = some plan) :
    call.Plain ∧ plan.Inner ∨
      ∃ bracket, call = .instruct (.bracket bracket) ∧ plan = bracket.plan drawing := by
  cases call with
  | instruct instruction =>
      cases planned
      cases instruction with
      | setting change => exact .inl ⟨nofun, change.plan_inner tools⟩
      | motion move => exact .inl ⟨nofun, move.plan_inner⟩
      | shape figure => exact .inl ⟨nofun, .nothing⟩
      | path step => exact .inl ⟨nofun, step.plan_inner⟩
      | bracket edge => exact .inr ⟨edge, rfl, rfl⟩
      | comment text => exact .inl ⟨nofun, .nothing⟩
  | accent kind color =>
      cases planned
      exact .inl ⟨nofun, Drawing.update_inner ..⟩
  | composite placement picture =>
      rcases composite_plan_cases planned with rfl | ⟨failure, -, rfl⟩ | ⟨encoded, rfl⟩
      · exact .inl ⟨nofun, trivial⟩
      · exact .inl ⟨nofun, trivial⟩
      · exact .inl ⟨nofun, .nothing⟩
  | render _ | dropProgram | clear | clearError => cases planned

theorem Plan.run_done (done : plan.run drawing = (after, .done)) : plan.Done drawing after := by
  cases plan with
  | refuse failure => simp [run, Drawing.fail] at done
  | keep =>
      cases done
      exact .keep
  | adjust change =>
      cases done
      exact .adjust change
  | write pieces change =>
      simp only [run, Drawing.fail] at done
      split at done
      · cases done
      rename_i usable
      split at done
      · rename_i buffer count put
        cases done
        rw [Buffer.putAll_ok put]
        exact .write (by simpa using usable)
      · cases done
  | close text change =>
      simp only [run, Drawing.fail] at done
      split at done
      · cases done
      rename_i usable
      split at done
      · rename_i buffer count appended
        cases done
        rw [Buffer.append_ok appended]
        exact .close (by simpa using usable)
      · cases done

theorem Buffer.indentIn_indentOut {buffer : Buffer} (indented : 0 < buffer.indent) :
    buffer.indentOut.indentIn = buffer := by
  rcases buffer with ⟨text, column, indent⟩
  simp only [Buffer.indentOut, Buffer.indentIn, Buffer.mk.injEq, true_and]
  exact Nat.sub_add_cancel indented

/-- A plan that fails leaves the memory of the failure behind, and nothing else.  The indentation
that closing goes out of is taken again, for which there has to be some. -/
theorem Plan.run_failed
    (indented : ∀ text change, plan = .close text change → 0 < drawing.buffer.indent)
    (failed : plan.run drawing = (after, .failed failure)) : after = drawing.record failure := by
  cases plan with
  | refuse reason =>
      cases failed
      rfl
  | keep | adjust change => cases failed
  | write pieces change =>
      simp only [run, Drawing.fail] at failed
      split at failed
      · cases failed
        rfl
      split at failed
      · cases failed
      · rename_i buffer reason put
        cases failed
        rw [Buffer.putAll_error put]
  | close text change =>
      simp only [run, Drawing.fail] at failed
      split at failed
      · cases failed
        rfl
      split at failed
      · cases failed
      · rename_i buffer reason appended
        cases failed
        rw [(Buffer.append_error appended).1,
          Buffer.indentIn_indentOut (indented text change rfl)]

theorem Plan.run_not_aborted {promise : String} : plan.run drawing ≠ (after, .aborted promise) := by
  intro aborted
  cases plan with
  | refuse reason => cases aborted
  | keep | adjust change => cases aborted
  | write pieces change =>
      simp only [run, Drawing.fail] at aborted
      grind
  | close text change =>
      simp only [run, Drawing.fail] at aborted
      grind

end Runs

end Quill
