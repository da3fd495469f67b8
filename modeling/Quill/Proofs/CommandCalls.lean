import Quill.Proofs.Atomicity

/-!
# The calls of commands

A command of a script comes down to one call, which does not depend on the drawing, unless
something is wrong with it before any drawing is asked: a picture without an extent, or a picture
file that cannot be read.  A replay makes these calls one after the other, and what it passes
through on the way is what each beginning of the script makes.
-/

namespace Quill

/-- The call that a command comes down to, or what is wrong with it. -/
def Command.call? (files : FileReader) (base : String) : Command → Except Failure Call
  | .instruct instruction => .ok (.instruct instruction)
  | .composite placement source =>
    if placement.hasExtent then (loadPicture files base source).map (.composite placement)
    else .error (.validation "composite width/height must be non-zero")

/-- A drawing that the replay of a script passes through. -/
def Passes (tools : Tools) (files : FileReader) (base : String) (start : Drawing)
    (commands : List Command) (drawing : Drawing) : Prop :=
  ∃ earlier, earlier <+: commands ∧ (replay tools files base start earlier).1 = drawing

variable {tools : Tools} {files : FileReader} {base : String} {start drawing after : Drawing}
  {command : Command} {commands : List Command} {call : Call} {outcome : Outcome} {index : Nat}

theorem Command.run_eq_call? (command : Command) :
    command.run tools files base drawing =
      match command.call? files base with
      | .ok call => drawing.call tools call
      | .error failure => (drawing, .failed failure) := by
  cases command with
  | instruct instruction => rfl
  | composite placement source =>
      rw [run, call?]
      cases placement.hasExtent with
      | false => rfl
      | true => cases loadPicture files base source <;> rfl

/-- A command that comes down to a call does what the call does. -/
theorem Command.run_of_call (called : command.call? files base = .ok call) :
    command.run tools files base drawing = drawing.call tools call := by
  rw [run_eq_call?, called]

/-- A command that comes down to no call leaves the drawing alone. -/
theorem Command.run_of_refused {failure : Failure}
    (refused : command.call? files base = .error failure) :
    command.run tools files base drawing = (drawing, .failed failure) := by
  rw [run_eq_call?, refused]

/-- A command comes down to an instruction, or to a composite that keeps its promise. -/
theorem Command.call?_cases (called : command.call? files base = .ok call) :
    (∃ instruction, call = .instruct instruction) ∨
      ∃ placement picture, placement.hasExtent = true ∧ call = .composite placement picture := by
  cases command with
  | instruct instruction =>
      cases called
      exact .inl ⟨instruction, rfl⟩
  | composite placement source =>
      rw [call?] at called
      split at called
      · rename_i extended
        cases loaded : loadPicture files base source with
        | error failure =>
            rw [loaded] at called
            cases called
        | ok picture =>
            rw [loaded] at called
            cases called
            exact .inr ⟨placement, picture, extended, rfl⟩
      · cases called

/-- What every command of a script keeps, its replay keeps, whether it stops or not. -/
theorem replayFrom_invariant {holds : Drawing → Prop}
    (kept : ∀ command ∈ commands, ∀ {drawing after : Drawing} {outcome : Outcome},
      command.run tools files base drawing = (after, outcome) → holds drawing → holds after)
    (begins : holds drawing) : holds (replayFrom tools files base index drawing commands).1 := by
  induction commands generalizing drawing index with
  | nil => exact begins
  | cons command rest ih =>
      rw [replayFrom]
      split
      · rename_i next ran
        exact ih (fun command member => kept command (List.mem_cons_of_mem _ member))
          (kept command List.mem_cons_self ran begins)
      · rename_i next failure ran
        exact kept command List.mem_cons_self ran begins
      · rename_i next promise ran
        exact kept command List.mem_cons_self ran begins

/-- What holds of a drawing and is kept by every command holds of all drawings that a replay
passes through. -/
theorem Passes.invariant {holds : Drawing → Prop}
    (passes : Passes tools files base start commands drawing)
    (kept : ∀ command ∈ commands, ∀ {drawing after : Drawing} {outcome : Outcome},
      command.run tools files base drawing = (after, outcome) → holds drawing → holds after)
    (begins : holds start) : holds drawing := by
  obtain ⟨earlier, beginning, rfl⟩ := passes
  exact replayFrom_invariant
    (fun command member => kept command (beginning.subset member)) begins

theorem Passes.reachable (passes : Passes tools files base start commands drawing)
    (begins : Reachable start) : Reachable drawing :=
  passes.invariant (fun _ _ _ _ _ ran reachable => reachable.of_command ran) begins

theorem Passes.last :
    Passes tools files base start commands (replay tools files base start commands).1 :=
  ⟨commands, List.prefix_rfl, rfl⟩

end Quill
