import Quill.Proofs.CommandCalls
import Quill.Proofs.Edits
import Quill.Proofs.Pieces

/-!
# What calls fail with

A drawing refuses a call for its argument or for what is open, and it runs out of room while
writing.  It never fails for a piece that is too long to be written, so any other failure is that
of an encoder.  Commands fail in two more ways, both before the drawing is asked.
-/

namespace Quill

/-- The failures that a drawing refuses calls with. -/
inductive Failure.Refusal : Failure → Prop
  | unbalancedContexts : Refusal .unbalancedContexts
  | missingArgument (what : String) : Refusal (.missingArgument what)
  | poisoned : Refusal .poisoned
  | unknownColor (name : String) : Refusal (.unknownColor name)
  | undefinedReference (id : String) : Refusal (.undefinedReference id)
  | notARelativeUrl (url : String) : Refusal (.notARelativeUrl url)
  | patternAlreadyOpen (id : String) : Refusal (.patternAlreadyOpen id)
  | unbalancedDefinition (kind : Definition) : Refusal (.unbalancedDefinition kind)

section Refusing

variable {tools : Tools} {drawing : Drawing} {failure : Failure}

theorem Drawing.require_refusal {what value : String}
    (refused : Drawing.require what value = .error failure) : failure.Refusal := by
  rw [require] at refused
  split at refused
  · cases refused
    exact .missingArgument what
  · cases refused

theorem Drawing.resolveColor_refusal {name : String}
    (refused : Drawing.resolveColor tools name = .error failure) : failure.Refusal := by
  simp only [resolveColor, bind, Except.bind] at refused
  split at refused
  · rename_i required
    cases refused
    exact require_refusal required
  split at refused
  · cases refused
  · cases refused
    exact .unknownColor _

theorem Drawing.patternReference_refusal {url : String}
    (refused : drawing.patternReference url = .error failure) : failure.Refusal := by
  simp only [patternReference, bind, Except.bind] at refused
  split at refused
  · rename_i required
    cases refused
    exact require_refusal required
  split at refused
  · split at refused
    · cases refused
    · cases refused
      exact .undefinedReference _
  · cases refused
    exact .notARelativeUrl _

theorem Drawing.clipReference_refusal {id : String}
    (refused : drawing.clipReference id = .error failure) : failure.Refusal := by
  simp only [clipReference, bind, Except.bind] at refused
  split at refused
  · rename_i required
    cases refused
    exact require_refusal required
  split at refused
  · cases refused
  · cases refused
    exact .undefinedReference _

theorem error_of_map_error {α β : Type} {argument : Except Failure α} {make : α → β}
    (mapped : argument.map make = .error failure) : argument = .error failure := by
  cases argument with
  | error reason =>
      cases mapped
      rfl
  | ok given => cases mapped

theorem Setting.edit?_refusal {setting : Setting}
    (refused : setting.edit? tools drawing = .error failure) : failure.Refusal := by
  cases setting with
  | paintName side name | accentName accent name =>
      exact Drawing.resolveColor_refusal (error_of_map_error refused)
  | paintPattern side url => exact Drawing.patternReference_refusal (error_of_map_error refused)
  | clipPath id => exact Drawing.clipReference_refusal (error_of_map_error refused)
  | label index text => exact Drawing.require_refusal (error_of_map_error refused)
  | _ => cases refused

/-- What is done behind an argument is refused only for the argument, if not for itself. -/
theorem Plan.checked_refuse {α : Type} {argument : Except Failure α} {plan : α → Plan}
    (planned : Plan.checked argument plan = .refuse failure) :
    argument = .error failure ∨ ∃ value, plan value = .refuse failure := by
  cases argument with
  | error reason =>
      cases planned
      exact .inl rfl
  | ok value => exact .inr ⟨value, planned⟩

theorem Edit.plan_ne_refuse (edit : Edit) : edit.plan drawing ≠ .refuse failure := by
  intro planned
  simp only [plan, Drawing.updateSpelled] at planned
  split at planned
  · cases planned
  · split at planned <;> cases planned

theorem Setting.plan_refusal {setting : Setting}
    (planned : setting.plan tools drawing = .refuse failure) : failure.Refusal := by
  rw [plan_eq_edit] at planned
  rcases Plan.checked_refuse planned with refused | ⟨edit, edits⟩
  · exact edit?_refusal refused
  · exact (edit.plan_ne_refuse edits).elim

theorem Bracket.plan_refusal {bracket : Bracket}
    (planned : bracket.plan drawing = .refuse failure) : failure.Refusal := by
  cases bracket with
  | openScope | openDefs => cases planned
  | openPattern id x y width height =>
      rcases Plan.checked_refuse planned with refused | ⟨given, planned⟩
      · exact Drawing.require_refusal refused
      · split at planned
        · cases planned
          exact .patternAlreadyOpen _
        · cases planned
  | openClipPath id =>
      rcases Plan.checked_refuse planned with refused | ⟨given, planned⟩
      · exact Drawing.require_refusal refused
      · cases planned
  | closeScope | closeDefs =>
      rw [plan] at planned
      split at planned
      · cases planned
        exact .poisoned
      split at planned
      · cases planned
        constructor
      · cases planned
  | closePattern | closeClipPath =>
      rw [plan] at planned
      split at planned
      · cases planned
        exact .poisoned
      split at planned
      · cases planned
        exact .unbalancedDefinition _
      · cases planned

theorem Instruction.plan_refusal {instruction : Instruction}
    (planned : instruction.plan tools drawing = .refuse failure) : failure.Refusal := by
  cases instruction with
  | setting change => exact Setting.plan_refusal planned
  | motion move =>
      simp only [plan, Motion.plan] at planned
      split at planned <;> cases planned
  | shape figure => cases planned
  | path step => cases step <;> cases planned
  | bracket edge => exact Bracket.plan_refusal planned
  | comment text => cases planned

/-- A call is refused for a reason of the drawing's own, or for one of the encoder's. -/
theorem Call.plan?_refusal {call : Call}
    (planned : call.plan? tools drawing = some (.refuse failure)) :
    failure.Refusal ∨ ∃ picture, tools.encode picture = .error failure := by
  cases call with
  | instruct instruction => exact .inl (Instruction.plan_refusal (Option.some.inj planned))
  | accent kind color =>
      exact ((drawing.context.accentEdit kind color).plan_ne_refuse (Option.some.inj planned)).elim
  | composite placement picture =>
      rcases composite_plan_cases planned with refused | ⟨reason, encoding, refused⟩ | ⟨_, writes⟩
      · cases refused
        exact .inl .poisoned
      · cases refused
        exact .inr ⟨picture, encoding⟩
      · cases writes
  | render _ | dropProgram | clear | clearError => cases planned

end Refusing

namespace Buffer

variable {layout : Layout} {buffer after : Buffer} {pieces : List Piece} {failure : Failure}

theorem put_error_short {piece : Piece} (short : piece.Short)
    (failed : buffer.put layout piece = (after, .error failure)) : failure = .outOfMemory := by
  cases piece with
  | plain text => exact (append_error failed).2
  | wrapping text =>
      rw [put, appendWrapping, if_neg (Nat.not_lt.mpr short)] at failed
      dsimp only at failed
      split at failed
      · rename_i broken reason start
        cases failed
        split at start
        · exact (append_error start).2
        · cases start
      split at failed
      · cases failed
      · rename_i unwritten reason appended
        cases failed
        exact (append_error appended).2

theorem putEach_error_short (short : ∀ piece ∈ pieces, piece.Short)
    (failed : buffer.putEach layout pieces = (after, .error failure)) :
    failure = .outOfMemory := by
  induction pieces generalizing buffer with
  | nil => cases failed
  | cons piece rest ih =>
      obtain ⟨first, others⟩ := List.forall_mem_cons.mp short
      rw [putEach] at failed
      split at failed
      · rename_i written count put
        split at failed
        · cases failed
        · rename_i partly reason each
          cases failed
          exact ih others each
      · rename_i unwritten reason put
        cases failed
        exact put_error_short first put

/-- Pieces that are not too long fail only for want of room. -/
theorem putAll_error_short (short : ∀ piece ∈ pieces, piece.Short)
    (failed : buffer.putAll layout pieces = (after, .error failure)) :
    failure = .outOfMemory := by
  rw [putAll] at failed
  split at failed
  · cases failed
  · rename_i partly reason each
    cases failed
    exact putEach_error_short short each

end Buffer

section Failing

variable {tools : Tools} {files : FileReader} {base : String} {drawing after : Drawing}
  {call : Call} {plan : Plan} {failure : Failure}

/-- Carrying out a plan fails if the plan is a refusal, or for the state of the drawing. -/
theorem Plan.run_failure (modest : plan.Modest)
    (failed : plan.run drawing = (after, .failed failure)) :
    plan = .refuse failure ∨ failure = .poisoned ∨ failure = .outOfMemory := by
  cases plan with
  | refuse reason =>
      cases failed
      exact .inl rfl
  | keep | adjust change => cases failed
  | write pieces change =>
      simp only [run, Drawing.fail] at failed
      split at failed
      · cases failed
        exact .inr (.inl rfl)
      split at failed
      · cases failed
      · rename_i buffer reason put
        cases failed
        exact .inr (.inr (Buffer.putAll_error_short modest put))
  | close text change =>
      simp only [run, Drawing.fail] at failed
      split at failed
      · cases failed
        exact .inr (.inl rfl)
      split at failed
      · cases failed
      · rename_i buffer reason appended
        cases failed
        exact .inr (.inr (Buffer.append_error appended).2)

/-- A planned call fails with a refusal, for want of room, or with a failure of the encoder. -/
theorem Drawing.call_failure (planned : call.plan? tools drawing = some plan)
    (failed : drawing.call tools call = (after, .failed failure)) :
    failure.Refusal ∨ failure = .outOfMemory ∨
      ∃ picture, tools.encode picture = .error failure := by
  rw [call_eq_run planned] at failed
  rcases Call.plan?_cases_modest planned with modest | ⟨rfl, picture, full⟩
  · rcases Plan.run_failure modest failed with rfl | rfl | full
    · exact (Call.plan?_refusal planned).imp_right .inr
    · exact .inl .poisoned
    · exact .inr (.inl full)
  · cases failed
    exact .inr (.inl rfl)

end Failing

end Quill
