import Quill.Proofs.Ambient
import Quill.Proofs.Edits
import Quill.Proofs.Lockstep

/-!
# Between lines

Only a literal of path data goes on behind the call that began it.  All other calls write whole
lines, so wherever no literal is open, the program is at the start of a line and the path at rest.
-/

namespace Quill

/-- Whether a literal of path data is open behind a call, if one was found open or not.  The steps
of a path that open a literal are given; the last step closes it. -/
def Call.leavesOpen (opens : Path.Step → Bool) (found : Bool) : Call → Bool
  | .instruct (.path .finish) | .dropProgram | .clear => false
  | .instruct (.path step) => opens step || found
  | _ => found

/-- Whether requests leave a literal of path data open, which some steps of a path open. -/
def openBehind (opens : Path.Step → Bool) (found : Bool) (requests : List Request) : Bool :=
  requests.foldl (fun found request => request.call.leavesOpen opens found) found

/-- Whether requests leave path data open, which every step but the last opens. -/
def literalOpen (found : Bool) (requests : List Request) : Bool :=
  openBehind (fun _ => true) found requests

/-- A drawing at the start of a line, in which no command of a path was written before. -/
structure Drawing.BetweenLines (drawing : Drawing) : Prop where
  column : drawing.buffer.column = 0
  path : drawing.path = {}

def Change.Pathless : Change → Prop
  | .path _ => False
  | _ => True

/-- A plan that writes whole lines and leaves the path alone. -/
def Plan.WholeLines : Plan → Prop
  | .write pieces change =>
    (∃ front text, pieces = front ++ [.plain (text ++ "\n")]) ∧ change.Pathless
  | _ => True

section Plans

variable {tools : Tools} {drawing : Drawing} {call : Call} {plan : Plan}

theorem Plan.wholeLines_line (text : String) {change : Change}
    (pathless : change.Pathless) : (Plan.line text change).WholeLines :=
  ⟨⟨[], text, rfl⟩, pathless⟩

theorem Edit.plan_wholeLines (edit : Edit) : (edit.plan drawing).WholeLines := by
  unfold Edit.plan Drawing.updateSpelled
  split
  · trivial
  cases edit.spelling with
  | none => trivial
  | some spelling => exact Plan.wholeLines_line _ trivial

theorem Shape.plan_wholeLines (shape : Shape) : shape.plan.WholeLines := by
  have points : ∀ (word : String) (pairs : List (Float × Float)),
      (Plan.write (pointList word pairs) .nothing).WholeLines :=
    fun word pairs => ⟨⟨_, "", rfl⟩, trivial⟩
  cases shape with
  | bezier pairs | polygon pairs | polyline pairs => exact points _ pairs
  | _ => exact Plan.wholeLines_line _ trivial

theorem Call.plan?_wholeLines (planned : call.plan? tools drawing = some plan)
    (plain : call.Plain) (pathless : ∀ step, call ≠ .instruct (.path step)) : plan.WholeLines := by
  cases call with
  | instruct instruction =>
      cases planned
      cases instruction with
      | setting change =>
          rw [Instruction.plan, change.plan_eq_edit]
          cases change.edit? tools drawing with
          | error failure => trivial
          | ok edit => exact edit.plan_wholeLines
      | motion move =>
          rw [Instruction.plan, Motion.plan]
          split
          · trivial
          · exact Plan.wholeLines_line _ trivial
      | shape figure => exact figure.plan_wholeLines
      | path step => exact (pathless step rfl).elim
      | bracket edge => exact (plain edge rfl).elim
      | comment text => exact Plan.wholeLines_line _ trivial
  | accent kind color =>
      cases planned
      rw [Drawing.accentPlan_eq_edit]
      exact Edit.plan_wholeLines _
  | composite placement picture =>
      rcases composite_plan_cases planned with rfl | ⟨failure, -, rfl⟩ | ⟨encoded, rfl⟩
      · trivial
      · trivial
      · exact Plan.wholeLines_line _ trivial
  | render _ | dropProgram | clear | clearError => cases planned

end Plans

section Steps

variable {tools : Tools} {drawing after : Drawing} {call : Call} {found : Bool}

theorem Drawing.BetweenLines.apply (between : drawing.BetweenLines) {change : Change}
    (pathless : change.Pathless) : (change.apply drawing).BetweenLines := by
  cases change with
  | path state => exact pathless.elim
  | closeScope =>
      simp only [Change.apply]
      split <;> exact ⟨between.column, between.path⟩
  | _ => exact ⟨between.column, between.path⟩

theorem Drawing.betweenLines_line (path : drawing.path = {}) (buffer : Buffer) (text : String) :
    BetweenLines { drawing with buffer := buffer.extended (text ++ "\n") } :=
  ⟨buffer.column_line text, path⟩

/-- A call that is planned and does not write path data leaves a literal as it was found. -/
theorem Call.leavesOpen_planned {plan : Plan} {opens : Path.Step → Bool}
    (planned : call.plan? tools drawing = some plan)
    (pathless : ∀ step, call ≠ .instruct (.path step)) : call.leavesOpen opens found = found := by
  cases call with
  | instruct instruction =>
      cases instruction with
      | path step => exact (pathless step rfl).elim
      | _ => rfl
  | accent kind color | composite placement picture => rfl
  | render _ | dropProgram | clear | clearError => cases planned

/-- A call that leaves no literal open leaves the drawing between lines. -/
theorem Effect.betweenLines (effect : Effect tools drawing call after .done)
    (start : found = false → drawing.BetweenLines)
    (finished : call.leavesOpen (fun _ => true) found = false) : after.BetweenLines := by
  have before : call.leavesOpen (fun _ => true) found = found → drawing.BetweenLines :=
    fun same => start (same.symm.trans finished)
  have unwritten : ∀ {plan}, call.plan? tools drawing = some plan →
      (∀ step : Path.Step, plan ≠ step.plan drawing) → drawing.BetweenLines := by
    intro plan planned unwritten
    refine before (Call.leavesOpen_planned planned ?_)
    rintro step rfl
    exact unwritten step (Option.some.inj planned).symm
  cases effect with
  | kept planned plain =>
      refine unwritten planned fun step same => ?_
      cases step <;> cases same
  | adjusted planned plain =>
      have between : drawing.BetweenLines := by
        refine unwritten planned fun step same => ?_
        cases step <;> cases same
      exact ⟨between.column, between.path⟩
  | wrote planned plain inner usable =>
      by_cases pathed : ∃ step, call = .instruct (.path step)
      · obtain ⟨step, rfl⟩ := pathed
        cases step with
        | start | close | segment mode command => cases finished
        | finish =>
            cases planned
            exact ⟨drawing.buffer.column_line "'", rfl⟩
      · have pathless : ∀ step, call ≠ .instruct (.path step) := not_exists.mp pathed
        have path := (before (Call.leavesOpen_planned planned pathless)).path
        obtain ⟨⟨front, text, rfl⟩, unmoved⟩ := Call.plan?_wholeLines planned plain pathless
        rw [List.foldl_append]
        exact (Drawing.betweenLines_line path _ text).apply unmoved
  | opened opens usable =>
      have lines := Drawing.betweenLines_line (before rfl).path drawing.buffer
      cases opens <;> exact (lines _).apply trivial
  | closed closes usable =>
      have lines := Drawing.betweenLines_line (before rfl).path drawing.buffer.indentOut
      cases closes <;> exact (lines _).apply trivial
  | rendered usable draws => exact ⟨(before rfl).column, (before rfl).path⟩
  | forgotten => exact ⟨(before rfl).column, (before rfl).path⟩
  | dropped | cleared => exact ⟨rfl, rfl⟩

/-- Calls that are done and leave no literal open leave the drawing between lines. -/
theorem Reachable.betweenLines {requests : List Request} (reachable : Reachable drawing)
    (start : found = false → drawing.BetweenLines)
    (done : ∀ outcome ∈ drawing.outcomes requests, outcome = .done)
    (finished : literalOpen found requests = false) : (drawing.perform requests).BetweenLines := by
  induction requests generalizing drawing found with
  | nil => exact start finished
  | cons request rest ih =>
      obtain ⟨here, later⟩ := List.forall_mem_cons.mp done
      have called : drawing.call request.tools request.call = ((drawing.serve request).1, .done) :=
        Drawing.call_of_outcome here
      have next : request.call.leavesOpen (fun _ => true) found = false →
          (drawing.serve request).1.BetweenLines :=
        (reachable.effect called).betweenLines start
      exact ih (reachable.of_serve request) next later finished

end Steps

end Quill
