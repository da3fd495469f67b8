import Quill.Proofs.Capture
import Quill.Proofs.Lockstep
import Quill.Proofs.Pieces

/-!
# What a byte limit changes

A drawing with a byte limit goes along with one that has none as long as the program fits.  The
first call whose instruction does not fit runs out of room, and leaves the program as it was.
-/

namespace Quill

def Drawing.limited (drawing : Drawing) (limit : Option Nat) : Drawing :=
  { drawing with settings := { drawing.settings with maxBytes := limit } }

/-- A request whose encoder and rasterizer never run out of memory. -/
def Request.Roomy (request : Request) : Prop :=
  request.tools.Roomy ∧
    ∀ rasterizer, request.call = .render rasterizer →
      ∀ canvas program context, (rasterizer canvas program context).2 ≠ some .outOfMemory

section Calls

variable {tools : Tools} {drawing : Drawing} {call : Call} {plan : Plan} {limit : Nat}

theorem Call.plan?_limited (bound : Option Nat) :
    call.plan? tools (drawing.limited bound) = call.plan? tools drawing := by
  cases call with
  | instruct instruction => cases instruction <;> rfl
  | _ => rfl

theorem Change.apply_limited (change : Change) (bound : Option Nat) :
    change.apply (drawing.limited bound) = (change.apply drawing).limited bound := by
  cases change with
  | closeScope =>
      simp only [apply, Drawing.limited]
      split <;> rfl
  | _ => rfl

theorem Plan.Writes.limited {buffer : Buffer} {change : Change}
    (writes : plan.Writes drawing buffer change) (bound : Option Nat) :
    plan.Writes (drawing.limited bound) buffer change := by
  cases writes with
  | write => exact .write
  | close => exact .close

theorem Drawing.hasRoom_limited_iff {size : Nat} :
    (drawing.limited (some limit)).layout.HasRoom size ↔ size ≤ limit :=
  ⟨fun room => room limit rfl, fun le bound same => by cases same; exact le⟩

section Writing

variable {buffer : Buffer} {change : Change}

theorem Plan.Writes.run_unlimited (writes : plan.Writes drawing buffer change)
    (modest : plan.Modest) (usable : drawing.poisoned = false) :
    plan.run (drawing.limited none) =
      (change.apply { drawing.limited none with buffer := buffer }, .done) :=
  (writes.limited none).run_ok modest usable (Layout.hasRoom_of_unlimited rfl _)

theorem Plan.Writes.run_of_fits (writes : plan.Writes drawing buffer change)
    (modest : plan.Modest)
    (fits : (plan.run (drawing.limited none)).1.program.utf8ByteSize ≤ limit) :
    plan.run (drawing.limited (some limit)) =
      ((plan.run (drawing.limited none)).1.limited (some limit),
        (plan.run (drawing.limited none)).2) := by
  by_cases poisoned : drawing.poisoned = true
  · rw [(writes.limited none).run_poisoned poisoned,
      (writes.limited (some limit)).run_poisoned poisoned]
    rfl
  · have usable : drawing.poisoned = false := by simpa using poisoned
    rw [writes.run_unlimited modest usable, Change.apply_program] at fits
    rw [writes.run_unlimited modest usable, (writes.limited (some limit)).run_ok modest usable
      (Drawing.hasRoom_limited_iff.mpr fits)]
    let written := { drawing.limited none with buffer := buffer }
    have applied : change.apply (written.limited (some limit)) =
        (change.apply written).limited (some limit) := change.apply_limited _
    exact congrArg (·, Outcome.done) applied

theorem Plan.Writes.run_of_overflows (writes : plan.Writes drawing buffer change)
    (modest : plan.Modest) (start : drawing.program.utf8ByteSize ≤ limit)
    (overflows : limit < (plan.run (drawing.limited none)).1.program.utf8ByteSize) :
    (plan.run (drawing.limited (some limit))).2 = .failed .outOfMemory := by
  by_cases poisoned : drawing.poisoned = true
  · rw [(writes.limited none).run_poisoned poisoned] at overflows
    exact absurd start (Nat.not_le.mpr overflows)
  · have usable : drawing.poisoned = false := by simpa using poisoned
    rw [writes.run_unlimited modest usable, Change.apply_program] at overflows
    refine (writes.limited (some limit)).run_full modest usable
      (Drawing.hasRoom_limited_iff.mpr start) ?_
    rw [Drawing.hasRoom_limited_iff]
    exact Nat.not_le.mpr overflows

end Writing

/-- A plan whose instruction fits is carried out as if there were no limit. -/
theorem Plan.run_limited_of_fits (modest : plan.Modest)
    (fits : (plan.run (drawing.limited none)).1.program.utf8ByteSize ≤ limit) :
    plan.run (drawing.limited (some limit)) =
      ((plan.run (drawing.limited none)).1.limited (some limit),
        (plan.run (drawing.limited none)).2) := by
  cases plan with
  | refuse failure => rfl
  | keep => rfl
  | adjust change => rfl
  | write pieces change => exact Writes.write.run_of_fits modest fits
  | close text change => exact Writes.close.run_of_fits modest fits

/-- A plan whose instruction does not fit runs out of room. -/
theorem Plan.run_limited_of_overflows (modest : plan.Modest)
    (start : drawing.program.utf8ByteSize ≤ limit)
    (overflows : limit < (plan.run (drawing.limited none)).1.program.utf8ByteSize) :
    (plan.run (drawing.limited (some limit))).2 = .failed .outOfMemory := by
  have still : ¬ limit < drawing.program.utf8ByteSize := Nat.not_lt.mpr start
  cases plan with
  | refuse failure => exact (still overflows).elim
  | keep => exact (still overflows).elim
  | adjust change => exact (still overflows).elim
  | write pieces change => exact Writes.write.run_of_overflows modest start overflows
  | close text change => exact Writes.close.run_of_overflows modest start overflows

theorem Drawing.render_limited (drawing : Drawing) (rasterizer : Rasterizer)
    (bound : Option Nat) :
    (drawing.limited bound).render rasterizer =
      ((drawing.render rasterizer).1.limited bound, (drawing.render rasterizer).2) := by
  rw [render, render]
  by_cases poisoned : drawing.poisoned = true
  · rw [if_pos poisoned, if_pos (show (drawing.limited bound).poisoned = true from poisoned)]
    rfl
  · rw [if_neg poisoned, if_neg (show ¬ (drawing.limited bound).poisoned = true from poisoned)]
    have same : rasterizer (drawing.limited bound).canvas (drawing.limited bound).program
        (drawing.limited bound).context =
      rasterizer drawing.canvas drawing.program drawing.context := rfl
    rw [same]
    split <;> rfl

theorem Drawing.program_render (drawing : Drawing) (rasterizer : Rasterizer) :
    (drawing.render rasterizer).1.program = drawing.program := by
  rw [render]
  split
  · rfl
  split <;> rfl

/-- A call without a plan does not look at the limit. -/
theorem Drawing.call_limited_of_unplanned (unplanned : call.plan? tools drawing = none)
    (bound : Option Nat) :
    (drawing.limited bound).call tools call =
        ((drawing.call tools call).1.limited bound, (drawing.call tools call).2) ∧
      (drawing.call tools call).1.program.utf8ByteSize ≤ drawing.program.utf8ByteSize := by
  cases call with
  | instruct _ | accent _ _ => cases unplanned
  | composite placement picture =>
      have aborts := (composite_of_unplanned unplanned).2
      have aborts' := (composite_of_unplanned ((Call.plan?_limited bound).trans unplanned)).2
      rw [aborts, aborts']
      exact ⟨rfl, le_rfl⟩
  | render rasterizer =>
      exact ⟨drawing.render_limited rasterizer bound, by rw [call, drawing.program_render]⟩
  | dropProgram => exact ⟨rfl, Nat.zero_le _⟩
  | clear => exact ⟨rfl, Nat.zero_le _⟩
  | clearError => exact ⟨rfl, le_rfl⟩

variable {request : Request}

/-- A request that fits is served as if there were no limit. -/
theorem Drawing.serve_limited_of_fits (roomy : request.Roomy)
    (fits : ((drawing.limited none).serve request).1.program.utf8ByteSize ≤ limit) :
    (drawing.limited (some limit)).serve request =
      (((drawing.limited none).serve request).1.limited (some limit),
        ((drawing.limited none).serve request).2) := by
  rw [serve] at fits
  rw [serve, serve]
  cases planned : request.call.plan? request.tools drawing with
  | none =>
      rw [(call_limited_of_unplanned planned (some limit)).1,
        (call_limited_of_unplanned planned none).1]
      rfl
  | some plan =>
      have unlimited := (Call.plan?_limited none).trans planned
      rw [call_eq_run unlimited] at fits
      rw [call_eq_run ((Call.plan?_limited (some limit)).trans planned), call_eq_run unlimited]
      exact Plan.run_limited_of_fits (Call.plan?_modest roomy.1 planned) fits

/-- A request that does not fit fails for want of room and changes nothing else. -/
theorem Balanced.serve_limited_of_overflows (balanced : Balanced drawing) (roomy : request.Roomy)
    (start : drawing.program.utf8ByteSize ≤ limit)
    (overflows : limit < ((drawing.limited none).serve request).1.program.utf8ByteSize) :
    (drawing.limited (some limit)).serve request =
      ((drawing.limited (some limit)).record .outOfMemory, .failed .outOfMemory) := by
  rw [Drawing.serve] at overflows
  rw [Drawing.serve]
  cases planned : request.call.plan? request.tools drawing with
  | none =>
      obtain ⟨unlimited, still⟩ := Drawing.call_limited_of_unplanned planned none
      rw [unlimited] at overflows
      exact absurd (still.trans start) (Nat.not_le.mpr overflows)
  | some plan =>
      have limited := (Call.plan?_limited (some limit)).trans planned
      rw [Drawing.call_eq_run ((Call.plan?_limited none).trans planned)] at overflows
      have failed := Plan.run_limited_of_overflows (Call.plan?_modest roomy.1 planned) start
        overflows
      have indented : ∀ text change, plan = .close text change →
          0 < (drawing.limited (some limit)).buffer.indent := by
        rintro text change rfl
        exact balanced.indented planned
      have ended : plan.run (drawing.limited (some limit)) = (_, .failed .outOfMemory) :=
        Prod.ext rfl failed
      have recorded := Plan.run_failed indented ended
      rw [Drawing.call_eq_run limited]
      exact Prod.ext recorded failed

end Calls

end Quill
