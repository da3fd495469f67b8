import Quill.Proofs.Balance
import Quill.Script.Replay

/-!
# Failed calls

A call that fails leaves the drawing as it was: the program, the contexts, the open path and the
open definitions, and the canvas.  Only the memory of the failure is new, and only running out of
room makes the drawing unusable.  The same holds of a command of a script, so a replay that stops
leaves what the commands before the failing one make on their own.
-/

namespace Quill

/-- Two drawings that differ at most in what they remember of failures. -/
def Drawing.SameWork (first second : Drawing) : Prop :=
  second = { first with poisoned := second.poisoned, lastError := second.lastError }

/-- What a failure leaves of a drawing: all of its work, and its usability unless room ran out. -/
structure Untouched (before : Drawing) (failure : Failure) (after : Drawing) : Prop where
  work : before.SameWork after
  poisoned : after.poisoned = true ↔ before.poisoned = true ∨ failure = .outOfMemory

/-- A rasterizer that leaves the canvas alone when it fails. -/
def Rasterizer.Careful (rasterizer : Rasterizer) : Prop :=
  ∀ {canvas program context drawn failure},
    rasterizer canvas program context = (drawn, some failure) → drawn = canvas

/-- Only rendering depends on somebody else's care. -/
def Call.Careful : Call → Prop
  | .render rasterizer => Rasterizer.Careful rasterizer
  | _ => True

variable {tools : Tools} {files : FileReader} {base : String} {drawing after next : Drawing}
  {call : Call} {command : Command} {commands : List Command} {outcome : Outcome}
  {failure : Failure} {index last : Nat}

theorem untouched_record (drawing : Drawing) (failure : Failure) :
    Untouched drawing failure (drawing.record failure) :=
  ⟨rfl, by simp [Drawing.record]⟩

theorem untouched_self (drawing : Drawing) (roomy : failure ≠ .outOfMemory) :
    Untouched drawing failure drawing :=
  ⟨rfl, by simp [roomy]⟩

/-- A call that fails does nothing but remember the failure. -/
theorem Effect.eq_record (effect : Effect tools drawing call after (.failed failure))
    (careful : call.Careful) : after = drawing.record failure := by
  cases effect with
  | failed planned => rfl
  | refused poisoned => rfl
  | misdrawn usable draws => rw [careful draws]

theorem Reachable.failed_untouched (reachable : Reachable drawing) (careful : call.Careful)
    (failed : drawing.call tools call = (after, .failed failure)) :
    Untouched drawing failure after := by
  rw [(reachable.effect failed).eq_record careful]
  exact untouched_record drawing failure

theorem loadPicture_roomy {source : String}
    (failed : loadPicture files base source = .error failure) : failure ≠ .outOfMemory := by
  simp only [loadPicture] at failed
  split at failed
  · cases failed
    nofun
  split at failed
  · cases failed
    nofun
  split at failed
  · cases failed
    nofun
  · cases failed

/-- A command is refused before the drawing is called, or is a call other than rendering. -/
theorem Command.run_cases (ran : command.run tools files base drawing = (after, outcome)) :
    (after = drawing ∧ ∃ failure, outcome = .failed failure ∧ failure ≠ .outOfMemory) ∨
      ∃ call : Call, call.Careful ∧ drawing.call tools call = (after, outcome) := by
  cases command with
  | instruct instruction => exact .inr ⟨.instruct instruction, trivial, ran⟩
  | composite placement source =>
      simp only [run] at ran
      split at ran
      · cases ran
        exact .inl ⟨rfl, _, rfl, nofun⟩
      split at ran
      · rename_i failure unloaded
        cases ran
        exact .inl ⟨rfl, _, rfl, loadPicture_roomy unloaded⟩
      · rename_i picture loaded
        exact .inr ⟨.composite placement picture, trivial, ran⟩

theorem Reachable.of_command (reachable : Reachable drawing)
    (ran : command.run tools files base drawing = (next, outcome)) : Reachable next := by
  rcases Command.run_cases ran with ⟨rfl, _⟩ | ⟨call, _, called⟩
  · exact reachable
  · exact reachable.of_call called

theorem Reachable.command_untouched (reachable : Reachable drawing)
    (failed : command.run tools files base drawing = (after, .failed failure)) :
    Untouched drawing failure after := by
  rcases Command.run_cases failed with ⟨rfl, reason, same, roomy⟩ | ⟨call, careful, called⟩
  · cases same
    exact untouched_self _ roomy
  · exact reachable.failed_untouched careful called

/-- A replay that is done has led through reachable drawings. -/
theorem Reachable.of_replay (reachable : Reachable drawing)
    (done : replayFrom tools files base index drawing commands = (after, .done)) :
    Reachable after := by
  induction commands generalizing drawing index with
  | nil =>
      cases done
      exact reachable
  | cons command rest ih =>
      simp only [replayFrom] at done
      split at done
      · rename_i next ran
        exact ih (reachable.of_command ran) done
      · cases done
      · cases done

/-- A replay that stops has done all commands before the one that failed. -/
theorem replayFrom_stopped
    (stopped : replayFrom tools files base index drawing commands =
      (after, .stopped last failure)) :
    ∃ earlier command later before,
      commands = earlier ++ command :: later ∧ last = index + earlier.length ∧
        replayFrom tools files base index drawing earlier = (before, .done) ∧
        command.run tools files base before = (after, .failed failure) := by
  induction commands generalizing drawing index with
  | nil => cases stopped
  | cons command rest ih =>
      simp only [replayFrom] at stopped
      split at stopped
      · rename_i next ran
        obtain ⟨earlier, failing, later, before, parts, position, done, failed⟩ := ih stopped
        refine ⟨command :: earlier, failing, later, before, ?_, ?_, ?_, failed⟩
        · rw [parts, List.cons_append]
        · rw [position, List.length_cons]
          omega
        · rw [replayFrom, ran]
          exact done
      · rename_i next reason ran
        cases stopped
        exact ⟨[], command, rest, drawing, rfl, rfl, rfl, ran⟩
      · cases stopped

/-- A failed call leaves a reachable drawing untouched, and so does a failed command; a replay
that stops at a command leaves what those before it make on their own. -/
theorem failures_leave_drawing {drawing : Drawing} (reachable : Reachable drawing) :
    (∀ (tools : Tools) (call : Call) (after : Drawing) (failure : Failure),
      call.Careful → drawing.call tools call = (after, .failed failure) →
        Untouched drawing failure after) ∧
      (∀ (tools : Tools) (files : FileReader) (base : String) (command : Command)
        (after : Drawing) (failure : Failure),
        command.run tools files base drawing = (after, .failed failure) →
          Untouched drawing failure after) ∧
      ∀ (tools : Tools) (files : FileReader) (base : String) (commands : List Command)
        (index : Nat) (after : Drawing) (failure : Failure),
        replay tools files base drawing commands = (after, .stopped index failure) →
          index < commands.length ∧
            ∃ before,
              replay tools files base drawing (commands.take index) = (before, .done) ∧
                Untouched before failure after := by
  refine ⟨?_, ?_, ?_⟩
  · intro tools call after failure careful failed
    exact reachable.failed_untouched careful failed
  · intro tools files base command after failure failed
    exact reachable.command_untouched failed
  · intro tools files base commands index after failure stopped
    obtain ⟨earlier, command, later, before, rfl, position, done, failed⟩ :=
      replayFrom_stopped stopped
    have counted : index = earlier.length := by omega
    refine ⟨by rw [counted, List.length_append, List.length_cons]; omega, before, ?_, ?_⟩
    · rw [counted, List.take_left]
      exact done
    · exact (reachable.of_replay done).command_untouched failed

/-- Room runs out in the middle of a list of points inside a scope. -/
theorem failures_leave_drawing_midway :
    ∃ drawing after, Reachable drawing ∧ drawing.program = "push graphic-context\n" ∧
      drawing.call {} (.instruct (.shape (.polygon [(1, 1), (2, 2)]))) =
        (after, .failed .outOfMemory) ∧
      Untouched drawing .outOfMemory after := by
  have reachable := (Reachable.start { maxBytes := some 36 } ⟨64, 64, .empty⟩).of_calls {}
    [.instruct (.bracket .openScope)]
  refine ⟨_, _, reachable, by decide +kernel, Prod.ext rfl (by decide +kernel), ?_⟩
  exact (failures_leave_drawing reachable).1 {} (.instruct (.shape (.polygon [(1, 1), (2, 2)])))
    _ _ trivial (Prod.ext rfl (by decide +kernel))

end Quill
