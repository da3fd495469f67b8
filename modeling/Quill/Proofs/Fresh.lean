import Quill.Proofs.Ambient
import Quill.Proofs.Lockstep

/-!
# Starting over

A drawing that is cleared goes on like a new one on the same artifacts.  Calls look at a canvas
only for its artifacts, except for a rasterizer, which may look at its size as well.  So two
drawings that are equal but for their canvases answer all requests alike.
-/

namespace Quill

/-- A rasterizer that looks at a canvas only for its artifacts. -/
def Rasterizer.SizeBlind (rasterizer : Rasterizer) : Prop :=
  ∀ (canvas canvas' : Canvas) (program : String) (context : Context),
    canvas.artifacts = canvas'.artifacts →
      (rasterizer canvas program context).2 = (rasterizer canvas' program context).2 ∧
        (rasterizer canvas program context).1.artifacts =
          (rasterizer canvas' program context).1.artifacts

/-- A call that looks at a canvas only for its artifacts. -/
def Call.SizeBlind : Call → Prop
  | .render rasterizer => rasterizer.SizeBlind
  | _ => True

namespace Drawing

/-- A drawing that shows the same as another one, on a canvas that holds the same artifacts. -/
inductive ShowsSame (first : Drawing) : Drawing → Prop
  | on (canvas : Canvas) (artifacts : first.canvas.artifacts = canvas.artifacts) :
      ShowsSame first { first with canvas := canvas }

namespace ShowsSame

variable {first second : Drawing} {tools : Tools} {call : Call}

theorem refl (drawing : Drawing) : drawing.ShowsSame drawing :=
  .on drawing.canvas rfl

theorem record (same : first.ShowsSame second) (failure : Failure) :
    (first.record failure).ShowsSame (second.record failure) := by
  cases same with
  | on canvas artifacts => exact .on canvas artifacts

theorem apply (same : first.ShowsSame second) (change : Change) :
    (change.apply first).ShowsSame (change.apply second) := by
  cases same with
  | on canvas artifacts =>
      cases change with
      | closePattern capture body =>
          have published := Canvas.artifacts_publish artifacts first.settings.geometryKey
            capture.id capture.bounds body capture.offset capture.offset
          exact .on _ published
      | closeScope =>
          simp only [Change.apply]
          cases first.contexts.pop? with
          | none => exact .on canvas artifacts
          | some popped => exact .on canvas artifacts
      | _ => exact .on canvas artifacts

theorem buffer (same : first.ShowsSame second) (buffer : Buffer) :
    ShowsSame { first with buffer := buffer } { second with buffer := buffer } := by
  cases same with
  | on canvas artifacts => exact .on canvas artifacts

theorem run (same : first.ShowsSame second) (plan : Plan) :
    (plan.run first).2 = (plan.run second).2 ∧
      (plan.run first).1.ShowsSame (plan.run second).1 := by
  have buffers := same.buffer
  cases plan with
  | refuse failure => exact ⟨rfl, same.record failure⟩
  | keep => exact ⟨rfl, same⟩
  | adjust change => exact ⟨rfl, same.apply (.context change)⟩
  | write pieces change =>
      cases same with
      | on canvas artifacts =>
          simp only [Plan.run, layout]
          split
          · exact ⟨rfl, .on canvas artifacts⟩
          split
          · exact ⟨rfl, (buffers _).apply change⟩
          · exact ⟨rfl, (buffers _).record _⟩
  | close text change =>
      cases same with
      | on canvas artifacts =>
          simp only [Plan.run, layout]
          split
          · exact ⟨rfl, .on canvas artifacts⟩
          split
          · exact ⟨rfl, (buffers _).apply change⟩
          · exact ⟨rfl, (buffers _).record _⟩

theorem patternReference (same : first.ShowsSame second) (url : String) :
    first.patternReference url = second.patternReference url := by
  cases same with
  | on canvas artifacts =>
      have published : ∀ key, first.canvas.artifact? key = canvas.artifact? key :=
        fun key => congrArg (·.get? key) artifacts
      simp only [Drawing.patternReference, published]

/-- Of the canvas a plan depends on the artifacts alone. -/
theorem plan? (same : first.ShowsSame second) (call : Call) :
    call.plan? tools first = call.plan? tools second := by
  cases call with
  | instruct instruction =>
      cases instruction with
      | setting change =>
          cases change with
          | paintPattern side url =>
              simp only [Call.plan?, Instruction.plan, Setting.plan, same.patternReference url]
              cases same with
              | on canvas artifacts => rfl
          | _ =>
              cases same with
              | on canvas artifacts => rfl
      | _ =>
          cases same with
          | on canvas artifacts => rfl
  | _ =>
      cases same with
      | on canvas artifacts => rfl

theorem render (same : first.ShowsSame second) {rasterizer : Rasterizer}
    (blind : rasterizer.SizeBlind) :
    (first.render rasterizer).2 = (second.render rasterizer).2 ∧
      (first.render rasterizer).1.ShowsSame (second.render rasterizer).1 := by
  cases same with
  | on canvas artifacts =>
      have agree := blind first.canvas canvas first.program first.context artifacts
      rcases drawn : rasterizer first.canvas first.program first.context with ⟨picture, failure⟩
      rcases drawn' : rasterizer canvas first.program first.context with ⟨picture', failure'⟩
      rw [drawn, drawn'] at agree
      obtain ⟨rfl, published⟩ := agree
      rw [program, context] at drawn drawn'
      simp only [Drawing.render, program, context, drawn, drawn']
      split
      · exact ⟨rfl, .on canvas artifacts⟩
      cases failure with
      | none => exact ⟨rfl, .on picture' published⟩
      | some reason => exact ⟨rfl, .on picture' published⟩

/-- A request is served alike. -/
theorem serve (same : first.ShowsSame second) {request : Request}
    (blind : request.call.SizeBlind) :
    (first.serve request).2 = (second.serve request).2 ∧
      (first.serve request).1.ShowsSame (second.serve request).1 := by
  obtain ⟨tools, call⟩ := request
  rw [Drawing.serve, Drawing.serve]
  cases planned : call.plan? tools first with
  | some plan =>
      have planned' := (same.plan? call).symm.trans planned
      rw [call_eq_run planned, call_eq_run planned']
      exact same.run plan
  | none =>
      cases call with
      | instruct _ | accent _ _ => cases planned
      | composite placement picture =>
          have unplanned := (same.plan? _).symm.trans planned
          rw [(composite_of_unplanned planned).2, (composite_of_unplanned unplanned).2]
          exact ⟨rfl, same⟩
      | render rasterizer => exact same.render blind
      | dropProgram | clear | clearError =>
          cases same with
          | on canvas artifacts => exact ⟨rfl, .on canvas artifacts⟩

end ShowsSame

/-- Clearing leaves a new drawing on the same canvas. -/
theorem clear_eq_start (drawing : Drawing) :
    drawing.clear = start drawing.settings drawing.canvas := rfl

end Drawing

/-- A drawing that was cleared, in whatever state it was, cannot be told from a new drawing with
the same settings on a canvas that holds the same artifacts: all requests end in the same way, and
the two drawings go on to show the same.  A rasterizer that looks at more of the canvas than its
artifacts needs the same canvas. -/
theorem cleared_drawing_is_fresh {settings : Settings} {canvas fresh : Canvas}
    {events : List Event} {drawing : Drawing} {requests : List Request}
    (run : Run (Drawing.start settings canvas) events drawing) (tools : Tools)
    (artifacts : drawing.canvas.artifacts = fresh.artifacts)
    (blind : drawing.canvas = fresh ∨ ∀ request ∈ requests, request.call.SizeBlind) :
    let cleared := (drawing.call tools .clear).1
    let new := Drawing.start settings fresh
    cleared.outcomes requests = new.outcomes requests ∧
      (cleared.perform requests).ShowsSame (new.perform requests) := by
  intro cleared new
  have kept : drawing.settings = settings := run.settings (.start settings canvas)
  have start : cleared = Drawing.start settings drawing.canvas := by
    rw [← kept]
    exact drawing.clear_eq_start
  rcases blind with same | blind
  · have equal : cleared = new := by rw [start, same]
    rw [equal]
    exact ⟨rfl, .refl _⟩
  · have same : cleared.ShowsSame new := by
      rw [start]
      exact .on fresh artifacts
    refine Drawing.lockstep ?_ same
    intro request member first second same
    exact same.serve (blind request member)

/-- A drawing that ran out of room inside a path, a scope and three kinds of definitions, and a new
one on a smaller canvas with the same pattern. -/
theorem cleared_drawing_is_fresh_when_poisoned :
    let bracket (edge : Bracket) : Call := .instruct (.bracket edge)
    let settings : Settings := { maxBytes := some 140 }
    let start := Drawing.start settings ⟨64, 64, .empty⟩
    let calls := [bracket (.openPattern "p" 0 0 8 8), bracket .closePattern, bracket .openScope,
      bracket .openDefs, bracket (.openClipPath "c"), bracket (.openPattern "q" 0 0 8 8),
      .instruct (.path .start), .instruct (.setting (.label .font "a name that is too long"))]
    let drawing := start.calls {} calls
    let requests : List Request :=
      [⟨{}, .instruct (.setting (.paintPattern .fill "#p"))⟩, ⟨{}, bracket .closeDefs⟩]
    let cleared := (drawing.call {} .clear).1
    let smaller : Canvas := ⟨8, 8, drawing.canvas.artifacts⟩
    let new := Drawing.start settings smaller
    drawing.poisoned = true ∧
      new.outcomes requests = [.done, .failed (.unbalancedDefinition .defs)] ∧
      cleared.outcomes requests = new.outcomes requests ∧
        (cleared.perform requests).ShowsSame (new.perform requests) := by
  intro bracket settings start calls drawing requests cleared smaller new
  have blind : ∀ request ∈ requests, request.call.SizeBlind := by
    simp [requests, bracket, Call.SizeBlind]
  have run : Run start (start.events {} calls) drawing := .calls {} start calls
  have artifacts : drawing.canvas.artifacts = smaller.artifacts := by simp only [smaller]
  have same := cleared_drawing_is_fresh run {} artifacts (.inr blind)
  exact ⟨by decide +kernel, by decide +kernel, same⟩

end Quill
