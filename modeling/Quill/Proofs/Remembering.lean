import Quill.Proofs.CommandCalls

/-!
# Remembered failures

A drawing remembers the message of the last call that failed, until it is cleared or told to
forget it.  Calls that are done or aborted leave the memory alone.  What a drawing does not
remember is a failure that is found before it is asked: a composite of a script that has no extent
or no readable picture leaves an older message in place.
-/

namespace Quill

/-- What is remembered of failures behind a call, given what was remembered before it. -/
def Event.memory (held : Option String) (event : Event) : Option String :=
  match event.outcome, event.call with
  | .failed failure, _ => some failure.message
  | _, .clear | _, .clearError => none
  | _, _ => held

section Calls

variable {tools : Tools} {drawing first last after : Drawing} {call : Call} {outcome : Outcome}
  {events : List Event} {failure : Failure}

theorem Change.apply_lastError (change : Change) (drawing : Drawing) :
    (change.apply drawing).lastError = drawing.lastError :=
  (change.apply_frame drawing).2.2.2

/-- A call that is done and neither clears the drawing nor its memory leaves the memory alone. -/
theorem Event.memory_done {held : Option String} (uncleared : call ≠ .clear)
    (unforgotten : call ≠ .clearError) : Event.memory held ⟨call, .done⟩ = held := by
  cases call with
  | clear => exact (uncleared rfl).elim
  | clearError => exact (unforgotten rfl).elim
  | _ => rfl

theorem Call.planned_ne {plan : Plan} (planned : call.plan? tools drawing = some plan) :
    call ≠ .clear ∧ call ≠ .clearError := by
  cases call with
  | clear | clearError => cases planned
  | _ => exact ⟨Call.noConfusion, Call.noConfusion⟩

theorem Effect.memory (effect : Effect tools drawing call after outcome) :
    after.lastError = Event.memory drawing.lastError ⟨call, outcome⟩ := by
  cases effect with
  | kept planned plain | adjusted planned plain =>
      obtain ⟨uncleared, unforgotten⟩ := Call.planned_ne planned
      exact (Event.memory_done uncleared unforgotten).symm
  | wrote planned plain inner usable =>
      obtain ⟨uncleared, unforgotten⟩ := Call.planned_ne planned
      exact (Change.apply_lastError ..).trans (Event.memory_done uncleared unforgotten).symm
  | opened opens usable | closed closes usable => exact Change.apply_lastError ..
  | _ => rfl

theorem Run.memory (run : Run first events last) (reachable : Reachable first) :
    last.lastError = events.foldl Event.memory first.lastError := by
  induction run with
  | stay drawing => rfl
  | step called rest ih =>
      rw [ih (reachable.of_call called), List.foldl_cons, (reachable.effect called).memory]

theorem Reachable.failure_remembered (reachable : Reachable drawing)
    (failed : drawing.call tools call = (after, .failed failure)) :
    after.lastError = some failure.message :=
  (reachable.effect failed).memory

end Calls

section Commands

variable {tools : Tools} {files : FileReader} {base : String} {drawing after : Drawing}
  {command : Command} {commands : List Command} {failure : Failure} {index : Nat}

/-- A failure of a command is remembered, or it was found before the drawing was asked. -/
theorem Reachable.command_failure (reachable : Reachable drawing)
    (failed : command.run tools files base drawing = (after, .failed failure)) :
    ((∃ call, command.call? files base = .ok call) ∧ after.lastError = some failure.message) ∨
      command.call? files base = .error failure ∧ after = drawing := by
  cases called : command.call? files base with
  | ok call =>
      rw [Command.run_of_call called] at failed
      exact .inl ⟨⟨call, rfl⟩, reachable.failure_remembered failed⟩
  | error reason =>
      rw [Command.run_of_refused called] at failed
      cases failed
      exact .inr ⟨rfl, rfl⟩

theorem Reachable.command_done (reachable : Reachable drawing)
    (done : command.run tools files base drawing = (after, .done)) :
    after.lastError = drawing.lastError := by
  cases called : command.call? files base with
  | ok call =>
      rw [Command.run_of_call called] at done
      have memory := (reachable.effect done).memory
      rcases Command.call?_cases called with ⟨instruction, rfl⟩ | ⟨placement, picture, -, rfl⟩
      · exact memory
      · exact memory
  | error reason =>
      rw [Command.run_of_refused called] at done
      cases done

/-- Commands that are done leave the memory of failures alone. -/
theorem Reachable.replay_done (reachable : Reachable drawing)
    (done : replayFrom tools files base index drawing commands = (after, .done)) :
    after.lastError = drawing.lastError := by
  induction commands generalizing drawing index with
  | nil =>
      cases done
      rfl
  | cons command rest ih =>
      rw [replayFrom] at done
      split at done
      · rename_i next ran
        rw [ih (reachable.of_command ran) done, reachable.command_done ran]
      · cases done
      · cases done

end Commands

/-- Behind any run a reachable drawing remembers the message of the last call that failed, unless
it was cleared since, so every call that fails is remembered, and so is every failure of a command
that comes down to a call.  A replay that stops at a command which comes down to none, as its
picture has no extent or no readable file, leaves the memory as it was before the replay. -/
theorem failed_calls_are_remembered {drawing : Drawing} (reachable : Reachable drawing) :
    (∀ events last, Run drawing events last →
      last.lastError = events.foldl Event.memory drawing.lastError) ∧
    (∀ tools call after failure, drawing.call tools call = (after, .failed failure) →
      after.lastError = some failure.message) ∧
    (∀ tools files base command after failure,
      Command.run tools files base drawing command = (after, .failed failure) →
        (∃ call, command.call? files base = .ok call) ∧ after.lastError = some failure.message ∨
          command.call? files base = .error failure ∧ after = drawing) ∧
    ∀ tools files base commands index after failure,
      replay tools files base drawing commands = (after, .stopped index failure) →
        ∃ command, commands[index]? = some command ∧
          ((∃ call, command.call? files base = .ok call) ∧
              after.lastError = some failure.message ∨
            command.call? files base = .error failure ∧
              after.lastError = drawing.lastError) := by
  refine ⟨?_, ?_, ?_, ?_⟩
  · intro events last run
    exact run.memory reachable
  · intro tools call after failure failed
    exact reachable.failure_remembered failed
  · intro tools files base command after failure failed
    exact reachable.command_failure failed
  · intro tools files base commands index after failure stopped
    obtain ⟨earlier, command, later, before, rfl, position, done, failed⟩ :=
      replayFrom_stopped stopped
    refine ⟨command, ?_, ?_⟩
    · rw [position, Nat.zero_add, List.getElem?_append_right (Nat.le_refl _), Nat.sub_self]
      rfl
    · rcases (reachable.of_replay done).command_failure failed with
        remembered | ⟨refused, rfl⟩
      · exact .inl remembered
      · exact .inr ⟨refused, reachable.replay_done done⟩

/-- An unknown color is remembered in the place of a scope that could not be closed. -/
theorem failed_calls_are_remembered_over_older :
    ∃ drawing after, Reachable drawing ∧
      drawing.lastError = some Failure.unbalancedContexts.message ∧
      drawing.call {} (.instruct (.setting (.paintName .fill "blurple"))) =
        (after, .failed (.unknownColor "blurple")) ∧
      after.lastError = some (Failure.unknownColor "blurple").message := by
  have reachable := (Reachable.start {} ⟨8, 8, .empty⟩).of_calls {}
    [.instruct (.bracket .closeScope)]
  refine ⟨_, _, reachable, by decide +kernel, Prod.ext rfl (by decide +kernel), ?_⟩
  exact (failed_calls_are_remembered reachable).2.1 {}
    (.instruct (.setting (.paintName .fill "blurple"))) _ _ (Prod.ext rfl (by decide +kernel))

/-- A composite without an extent is refused, and what is remembered is that a scope could not be
closed before it. -/
theorem flat_composite_keeps_older_failure :
    ∃ drawing, Reachable drawing ∧
      replay {} (fun _ => .error .notFound) "base" drawing
          [.composite ⟨.over, 0, 0, 0, 4⟩ "logo.png"] =
        (drawing, .stopped 0 (.validation "composite width/height must be non-zero")) ∧
      drawing.lastError = some Failure.unbalancedContexts.message ∧
      drawing.lastError ≠
        some (Failure.validation "composite width/height must be non-zero").message := by
  have reachable := (Reachable.start {} ⟨8, 8, .empty⟩).of_calls {}
    [.instruct (.bracket .closeScope)]
  refine ⟨_, reachable, Prod.ext ?_ ?_, by decide +kernel, by decide +kernel⟩
  · rfl
  · decide +kernel

end Quill
