import Quill.Proofs.Leaks
import Quill.Proofs.Run

/-!
# Drawings that ran out of room

Room can run out while an instruction is written, in an encoder or in a rasterizer.  Whichever it
was, the drawing remembers it until it is cleared.  Till then nothing is written, nothing is opened
or closed and nothing is drawn.  Contexts change only in attributes that can be set without writing:
the bounds of an object, and three attributes that have values without a spelling.
-/

namespace Quill

/-- Room ran out at some event, and the drawing was not cleared since. -/
def RanOut (events : List Event) : Prop :=
  ∃ earlier call later, events = earlier ++ ⟨call, .failed .outOfMemory⟩ :: later ∧
    ∀ event ∈ later, event.call ≠ .clear

/-- Two drawings that differ at most in what contexts hold and in what is remembered of failures. -/
structure Drawing.StandsStill (drawing later : Drawing) : Prop where
  rest : later = { drawing with contexts := later.contexts, lastError := later.lastError }
  depth : later.contexts.depth = drawing.contexts.depth

/-- A drawing as it would be if it had not run out of room. -/
def Drawing.usable (drawing : Drawing) : Drawing :=
  { drawing with poisoned := false }

/-- What a call stores in the context in force without writing it. -/
def Call.unwritten? : Call → Option (Context → Context)
  | .instruct (.setting (.bounds rectangle)) => some ({ · with bounds := rectangle })
  | .instruct (.setting (.gravity anchor)) =>
    if anchor.token? = none then some ({ · with gravity := anchor }) else none
  | .instruct (.setting (.alignment side)) =>
    if side.token? = none then some ({ · with alignment := side }) else none
  | .instruct (.setting (.direction run)) =>
    if run.token? = none then some ({ · with direction := run }) else none
  | _ => none

/-- An attribute all of whose values are written. -/
def Attribute.Spelled : Attribute → Prop
  | .bounds | .gravity | .alignment | .direction => False
  | _ => True

section Remembering

variable {tools : Tools} {drawing first last : Drawing} {call : Call} {event : Event}
  {events : List Event}

@[simp]
theorem Change.poisoned_apply (change : Change) (drawing : Drawing) :
    (change.apply drawing).poisoned = drawing.poisoned :=
  (change.apply_frame drawing).2.2.1

theorem Plan.poisoned_run (plan : Plan) (drawing : Drawing) :
    (plan.run drawing).1.poisoned =
      (drawing.poisoned || (plan.run drawing).2 == .failed .outOfMemory) := by
  have same : ∀ failure : Failure,
      (failure == .outOfMemory) = (Outcome.failed failure == .failed .outOfMemory) := by
    intro failure
    rw [Bool.eq_iff_iff]
    simp
  cases plan with
  | refuse failure => simp [run, Drawing.fail, Drawing.record, same]
  | keep | adjust change => simp [run]
  | write pieces change | close text change =>
      simp only [run]
      split
      · simp [Drawing.fail, Drawing.record, same]
      split <;> simp [Drawing.fail, Drawing.record, same]

/-- Unless it clears the drawing, a call makes it unusable exactly if it runs out of room. -/
theorem Drawing.poisoned_call (tools : Tools) (drawing : Drawing) (uncleared : call ≠ .clear) :
    (drawing.call tools call).1.poisoned =
      (drawing.poisoned || (drawing.call tools call).2 == .failed .outOfMemory) := by
  cases planned : call.plan? tools drawing with
  | some plan =>
      rw [call_eq_run planned]
      exact plan.poisoned_run drawing
  | none =>
      cases call with
      | instruct _ | accent _ _ => cases planned
      | composite placement picture => simp [(composite_of_unplanned planned).2]
      | render rasterizer =>
          simp only [Drawing.call, render, fail]
          split
          · rename_i poisoned
            simp [record, poisoned]
          split
          · simp
          · rw [record, Bool.eq_iff_iff]
            simp
      | dropProgram | clearError => simp [Drawing.call, dropProgram, clearError]
      | clear => exact (uncleared rfl).elim

theorem ranOut_cons : RanOut (event :: events) ↔
    (event.outcome = .failed .outOfMemory ∧ ∀ later ∈ events, later.call ≠ .clear) ∨
      RanOut events := by
  constructor
  · rintro ⟨earlier, call, later, equal, uncleared⟩
    cases earlier with
    | nil =>
        cases equal
        exact .inl ⟨rfl, uncleared⟩
    | cons first earlier =>
        cases equal
        exact .inr ⟨earlier, call, later, rfl, uncleared⟩
  · rintro (⟨full, uncleared⟩ | ⟨earlier, call, later, rfl, uncleared⟩)
    · rcases event with ⟨call, outcome⟩
      cases full
      exact ⟨[], call, events, rfl, uncleared⟩
    · exact ⟨event :: earlier, call, later, rfl, uncleared⟩

theorem Run.poisoned_iff (run : Run first events last) :
    last.poisoned = true ↔
      RanOut events ∨ first.poisoned = true ∧ ∀ event ∈ events, event.call ≠ .clear := by
  induction run with
  | stay drawing => simp [RanOut]
  | @step tools first next last call outcome events called rest ih =>
      rw [ih, ranOut_cons, List.forall_mem_cons]
      by_cases cleared : call = .clear
      · subst cleared
        cases called
        simp [Drawing.clear]
      · have poisoned := Drawing.poisoned_call tools first cleared
        rw [called, Bool.eq_iff_iff] at poisoned
        simp only [Bool.or_eq_true, beq_iff_eq] at poisoned
        rw [poisoned]
        tauto

end Remembering

section Standing

variable {tools : Tools} {drawing middle next last : Drawing} {call : Call} {plan : Plan}
  {outcome : Outcome} {change : Context → Context} {events : List Event}

namespace Drawing.StandsStill

theorem trans (first : drawing.StandsStill middle) (second : middle.StandsStill last) :
    drawing.StandsStill last := by
  refine ⟨?_, second.depth.trans first.depth⟩
  rw [second.rest, first.rest]

theorem poisoned (still : drawing.StandsStill last) : last.poisoned = drawing.poisoned := by
  rw [still.rest]

end Drawing.StandsStill

theorem Drawing.record_of_poisoned (poisoned : drawing.poisoned = true) (failure : Failure) :
    drawing.record failure = { drawing with lastError := some failure.message } := by
  simp [record, poisoned]

/-- Nothing is written once room ran out, so a plan can only change the context by itself. -/
theorem Plan.run_exhausted (poisoned : drawing.poisoned = true) :
    (∃ change, plan = .adjust change) ∨ plan.run drawing = (drawing, .done) ∨
      ∃ failure, plan.run drawing = drawing.fail failure := by
  cases plan with
  | refuse failure => exact .inr (.inr ⟨failure, rfl⟩)
  | keep => exact .inr (.inl rfl)
  | adjust change => exact .inl ⟨change, rfl⟩
  | write pieces change | close text change =>
      exact .inr (.inr ⟨.poisoned, by simp [run, poisoned]⟩)

theorem Drawing.call_exhausted (tools : Tools) (poisoned : drawing.poisoned = true)
    (uncleared : call ≠ .clear) (undropped : call ≠ .dropProgram) :
    (∃ change, call.plan? tools drawing = some (.adjust change)) ∨
      ∃ error, (drawing.call tools call).1 = { drawing with lastError := error } := by
  cases planned : call.plan? tools drawing with
  | some plan =>
      rw [call_eq_run planned]
      rcases plan.run_exhausted poisoned with ⟨change, rfl⟩ | kept | ⟨failure, failed⟩
      · exact .inl ⟨change, rfl⟩
      · exact .inr ⟨drawing.lastError, by rw [kept]⟩
      · exact .inr ⟨some failure.message, by rw [failed, fail, record_of_poisoned poisoned]⟩
  | none =>
      right
      cases call with
      | instruct _ | accent _ _ => cases planned
      | composite placement picture =>
          exact ⟨drawing.lastError, by rw [(composite_of_unplanned planned).2]⟩
      | render rasterizer =>
          refine ⟨some Failure.poisoned.message, ?_⟩
          simp only [Drawing.call, render, poisoned, if_true, fail, record_of_poisoned]
      | dropProgram => exact (undropped rfl).elim
      | clear => exact (uncleared rfl).elim
      | clearError => exact ⟨none, rfl⟩

theorem Drawing.StandsStill.of_call (poisoned : drawing.poisoned = true)
    (uncleared : call ≠ .clear) (undropped : call ≠ .dropProgram)
    (called : drawing.call tools call = (next, outcome)) : drawing.StandsStill next := by
  rcases Drawing.call_exhausted tools poisoned uncleared undropped with
    ⟨change, planned⟩ | ⟨error, kept⟩
  · rw [Drawing.call_eq_run planned] at called
    cases called
    exact ⟨rfl, ContextStack.depth_modify _ _⟩
  · rw [called] at kept
    cases kept
    exact ⟨rfl, rfl⟩

theorem Run.standsStill (run : Run drawing events last) (poisoned : drawing.poisoned = true)
    (kept : ∀ event ∈ events, event.call ≠ .clear ∧ event.call ≠ .dropProgram) :
    drawing.StandsStill last := by
  induction run with
  | stay drawing => exact ⟨rfl, rfl⟩
  | step called _ ih =>
      obtain ⟨⟨uncleared, undropped⟩, later⟩ := List.forall_mem_cons.mp kept
      have still := Drawing.StandsStill.of_call poisoned uncleared undropped called
      exact still.trans (ih (still.poisoned.trans poisoned) later)

/-- What is planned does not depend on whether the drawing can be used, except that some calls
ask for that first. -/
theorem Call.plan?_usable (poisoned : drawing.poisoned = true) :
    call.plan? tools drawing = call.plan? tools drawing.usable ∨
      call.plan? tools drawing = some (.refuse .poisoned) := by
  cases call with
  | instruct instruction =>
      cases instruction with
      | setting setting => exact .inl (by cases setting <;> rfl)
      | path step => exact .inl (by cases step <;> rfl)
      | bracket bracket =>
          cases bracket with
          | closeScope | closePattern | closeClipPath | closeDefs =>
              right
              simp [plan?, Instruction.plan, Bracket.plan, poisoned]
          | _ => exact .inl rfl
      | motion _ | shape _ | comment _ => exact .inl rfl
  | composite placement picture =>
      simp only [plan?, poisoned]
      split <;> simp
  | accent _ _ | render _ | dropProgram | clear | clearError => exact .inl rfl

/-- A call that would append something, if only the drawing could be used, fails. -/
theorem Drawing.call_unusable {added : String} (poisoned : drawing.poisoned = true)
    (nonempty : added ≠ "")
    (appends : (drawing.usable.call tools call).1.program = drawing.program ++ added) :
    (drawing.call tools call).2 = .failed .poisoned := by
  have grows : drawing.program ++ added ≠ drawing.program := by
    simpa using nonempty
  have vanishes : drawing.program ++ added ≠ "" := by
    simp [nonempty]
  have plans : call.plan? tools drawing = call.plan? tools drawing.usable ∨
      call.plan? tools drawing = some (.refuse .poisoned) := Call.plan?_usable poisoned
  rcases plans with same | refused
  · cases planned : call.plan? tools drawing with
    | some plan =>
        rw [call_eq_run planned]
        rw [planned] at same
        rw [call_eq_run same.symm] at appends
        cases plan with
        | refuse failure | keep | adjust change => exact (grows appends.symm).elim
        | write pieces change | close text change => simp [Plan.run, poisoned, fail]
    | none =>
        rw [planned] at same
        cases call with
        | instruct _ | accent _ _ => cases planned
        | composite placement picture =>
            rw [(composite_of_unplanned same.symm).2] at appends
            exact (grows appends.symm).elim
        | render rasterizer => simp [Drawing.call, render, poisoned, fail]
        | dropProgram | clear => exact (vanishes appends.symm).elim
        | clearError => exact (grows appends.symm).elim
  · rw [call_eq_run refused]
    rfl

end Standing

/-- A drawing is unusable exactly if room ran out and it was not cleared since.  Then every run that
neither clears it nor drops its program leaves it standing still, rasterizers are not asked, and
what would append something fails. -/
theorem exhausted_drawings_stand_still :
    (∀ (settings : Settings) (canvas : Canvas) (events : List Event) (drawing : Drawing),
      Run (Drawing.start settings canvas) events drawing →
        (drawing.poisoned = true ↔ RanOut events)) ∧
      ∀ (drawing last : Drawing) (events : List Event),
        drawing.poisoned = true → Run drawing events last →
        (∀ event ∈ events, event.call ≠ .clear ∧ event.call ≠ .dropProgram) →
          drawing.StandsStill last ∧
            (∀ (tools : Tools) (rasterizer : Rasterizer),
              last.call tools (.render rasterizer) = last.fail .poisoned) ∧
            ∀ (tools : Tools) (call : Call) (added : String), added ≠ "" →
              (last.usable.call tools call).1.program = last.program ++ added →
                (last.call tools call).2 = .failed .poisoned := by
  constructor
  · intro settings canvas events drawing run
    simpa [Drawing.start] using run.poisoned_iff
  · intro drawing last events poisoned run kept
    have still := run.standsStill poisoned kept
    have unusable : last.poisoned = true := still.poisoned.trans poisoned
    refine ⟨still, ?_, ?_⟩
    · intro tools rasterizer
      simp [Drawing.call, Drawing.render, unusable]
    · intro tools call added nonempty appends
      exact Drawing.call_unusable unusable nonempty appends

/-- A second scope finds no room; then a comment, a rendering and a definition are refused. -/
theorem exhausted_drawings_stand_still_without_second_scope :
    let bracket (edge : Bracket) : Call := .instruct (.bracket edge)
    let start := Drawing.start { maxBytes := some 40 } ⟨10, 10, .empty⟩
    let filling := [bracket .openScope, bracket .openScope]
    let refused := [.instruct (.comment "x"), .render fun canvas _ _ => (canvas, none),
      bracket .openDefs, bracket .closeScope]
    let full := start.calls {} filling
    let last := full.calls {} refused
    RanOut (start.events {} filling) ∧ full.StandsStill last ∧
      last.program = "push graphic-context\n" ∧
      (last.call {} (.instruct (.comment "x"))).2 = .failed .poisoned := by
  intro bracket start filling refused full last
  have unusable : full.poisoned = true := by decide +kernel
  have kept : ∀ call ∈ refused, call ≠ .clear ∧ call ≠ .dropProgram := by
    simp [refused, bracket]
  have kept : ∀ event ∈ full.events {} refused,
      event.call ≠ .clear ∧ event.call ≠ .dropProgram :=
    fun event member => kept _ (Drawing.call_mem_of_mem_events member)
  have stands := exhausted_drawings_stand_still.2 full last _ unusable (.calls {} full refused) kept
  refine ⟨?_, stands.1, by decide +kernel, ?_⟩
  · exact (exhausted_drawings_stand_still.1 _ _ _ _ (.calls {} start filling)).mp unusable
  · refine stands.2.2 {} _ " #x\n" (by decide) ?_
    decide +kernel

section Freezing

variable {tools : Tools} {drawing next last : Drawing} {call : Call} {outcome : Outcome}
  {change : Context → Context} {events : List Event}

theorem Setting.edit?_unspelled {setting : Setting} {edit : Edit}
    (edits : setting.edit? tools drawing = .ok edit) (unspelled : edit.spelling = none) :
    (Call.instruct (.setting setting)).unwritten? = some edit.change := by
  cases setting with
  | paintName side name | paintPattern side url | clipPath id | label index text
  | accentName accent name =>
      obtain ⟨value, -, rfl⟩ := exists_of_map_ok edits
      cases unspelled
  | gravity anchor | alignment side | direction run =>
      cases edits
      exact if_pos unspelled
  | bounds rectangle =>
      cases edits
      rfl
  | _ =>
      cases edits
      cases unspelled

/-- Only what is not written changes a context by itself. -/
theorem Call.unwritten?_of_adjust (planned : call.plan? tools drawing = some (.adjust change)) :
    call.unwritten? = some change := by
  rcases Call.updates_cases planned .adjust with
    ⟨setting, edit, rfl, edits, adjusts⟩ | ⟨accent, color, rfl, adjusts⟩ | ⟨motion, rfl, adjusts⟩
  · obtain ⟨unspelled, rfl⟩ := Edit.plan_adjust adjusts.symm
    exact Setting.edit?_unspelled edits unspelled
  · cases (Edit.plan_adjust adjusts.symm).1
  · simp only [Motion.plan] at adjusts
    split at adjusts <;> cases adjusts

theorem Drawing.contexts_of_written (tools : Tools) (poisoned : drawing.poisoned = true)
    (uncleared : call ≠ .clear) (written : call.unwritten? = none) :
    (drawing.call tools call).1.contexts = drawing.contexts := by
  by_cases dropped : call = .dropProgram
  · rw [dropped]
    rfl
  rcases call_exhausted tools poisoned uncleared dropped with ⟨change, planned⟩ | ⟨error, kept⟩
  · rw [Call.unwritten?_of_adjust planned] at written
    cases written
  · rw [kept]

theorem ContextStack.modify_of_same {stack : ContextStack}
    (same : change stack.current = stack.current) : stack.modify change = stack := by
  apply toList_injective
  rw [toList_modify, same, ← toList_eq_cons]

/-- An unspelled value is stored, or it is in force already. -/
theorem Drawing.run_unspelled {differs : Bool} {word : String}
    (same : differs = false → change drawing.context = drawing.context) :
    ((drawing.updateSpelled differs word none change).run drawing).2 = .done ∧
      ((drawing.updateSpelled differs word none change).run drawing).1.contexts =
        drawing.contexts.modify change := by
  unfold updateSpelled
  split
  · rename_i skipped
    rw [Bool.and_eq_true, Bool.not_eq_true'] at skipped
    exact ⟨rfl, (ContextStack.modify_of_same (same skipped.2)).symm⟩
  · exact ⟨rfl, rfl⟩

theorem Drawing.contexts_of_unwritten (tools : Tools) (drawing : Drawing)
    (unwritten : call.unwritten? = some change) :
    (drawing.call tools call).2 = .done ∧
      (drawing.call tools call).1.contexts = drawing.contexts.modify change := by
  cases call with
  | instruct instruction =>
      cases instruction with
      | setting setting =>
          cases setting with
          | bounds rectangle =>
              cases unwritten
              exact ⟨rfl, rfl⟩
          | gravity anchor | alignment side | direction run =>
              simp only [Call.unwritten?] at unwritten
              split at unwritten
              · rename_i unspelled
                cases unwritten
                simp only [call, Instruction.plan, Setting.plan, unspelled]
                refine run_unspelled fun same => ?_
                rw [bne_eq_false_iff_eq] at same
                rw [← same]
              · cases unwritten
          | _ => cases unwritten
      | _ => cases unwritten
  | _ => cases unwritten

/-- What is stored without being written belongs to attributes that are not always written. -/
theorem Call.unwritten?_agree (unwritten : call.unwritten? = some change) (context : Context) :
    context.AgreeOn Attribute.Spelled (change context) := by
  intro kind spelled
  simp only [unwritten?] at unwritten
  split at unwritten
  case h_1 =>
    cases unwritten
    cases kind <;> first | rfl | exact spelled.elim
  case h_5 => cases unwritten
  all_goals
    split at unwritten
    · cases unwritten
      cases kind <;> first | rfl | exact spelled.elim
    · cases unwritten

theorem Context.agreeOn_refl (kept : Attribute → Prop) (context : Context) :
    context.AgreeOn kept context :=
  fun _ _ => rfl

theorem Run.contexts_agree (run : Run drawing events last) (poisoned : drawing.poisoned = true)
    (uncleared : ∀ event ∈ events, event.call ≠ .clear) :
    List.Forall₂ (Context.AgreeOn Attribute.Spelled) drawing.contexts.toList
      last.contexts.toList := by
  induction run with
  | stay drawing => exact List.forall₂_same.mpr fun context _ => context.agreeOn_refl _
  | @step tools first next last call outcome events called rest ih =>
      obtain ⟨here, later⟩ := List.forall_mem_cons.mp uncleared
      have exhausted := Drawing.poisoned_call tools first here
      rw [called, poisoned, Bool.true_or] at exhausted
      have others := ih exhausted later
      cases unwritten : call.unwritten? with
      | none =>
          have frozen := Drawing.contexts_of_written tools poisoned here unwritten
          rw [called] at frozen
          rwa [← frozen]
      | some change =>
          have stored := (Drawing.contexts_of_unwritten tools first unwritten).2
          rw [called] at stored
          rw [stored, ContextStack.toList_modify, last.contexts.toList_eq_cons] at others
          rw [first.contexts.toList_eq_cons, last.contexts.toList_eq_cons]
          obtain ⟨top, below⟩ := List.forall₂_cons.mp others
          refine .cons (fun kind spelled => ?_) below
          exact (Call.unwritten?_agree unwritten _ kind spelled).trans (top kind spelled)

end Freezing

/-- Once room ran out, no call but a clearing one changes a context, except that the bounds of an
object and three attributes with values that are not written can be set.  No context gets another
value of an attribute that is always written. -/
theorem exhausted_drawings_keep_contexts {drawing : Drawing}
    (poisoned : drawing.poisoned = true) :
    (∀ (tools : Tools) (call : Call), call ≠ .clear → call.unwritten? = none →
      (drawing.call tools call).1.contexts = drawing.contexts) ∧
      (∀ (tools : Tools) (call : Call) (change : Context → Context),
        call.unwritten? = some change →
          (drawing.call tools call).2 = .done ∧
            (drawing.call tools call).1.contexts = drawing.contexts.modify change) ∧
      ∀ (events : List Event) (last : Drawing), Run drawing events last →
        (∀ event ∈ events, event.call ≠ .clear) →
          List.Forall₂ (Context.AgreeOn Attribute.Spelled) drawing.contexts.toList
            last.contexts.toList := by
  refine ⟨?_, ?_, ?_⟩
  · intro tools call uncleared written
    exact Drawing.contexts_of_written tools poisoned uncleared written
  · intro tools call change unwritten
    exact Drawing.contexts_of_unwritten tools drawing unwritten
  · intro events last run uncleared
    exact run.contexts_agree poisoned uncleared

/-- A paint is refused, and then the bounds of an object and an unspelled anchor are stored. -/
theorem exhausted_drawings_keep_contexts_but_anchor :
    let full := (Drawing.start { maxBytes := some 4 } ⟨10, 10, .empty⟩).calls {}
      [.instruct (.bracket .openScope)]
    let paint : Call := .instruct (.setting (.paint .fill ⟨255, 0, 0, 255⟩))
    let anchor : Call := .instruct (.setting (.gravity .fixed))
    let last := full.calls {} [paint, anchor]
    (full.call {} paint).1.contexts = full.contexts ∧
      (full.call {} anchor).1.contexts = full.contexts.modify ({ · with gravity := .fixed }) ∧
      List.Forall₂ (Context.AgreeOn Attribute.Spelled) full.contexts.toList
        last.contexts.toList := by
  intro full paint anchor last
  have keeps := @exhausted_drawings_keep_contexts full (by decide +kernel)
  have uncleared : ∀ call ∈ [paint, anchor], call ≠ .clear := by
    simp [paint, anchor]
  refine ⟨keeps.1 {} paint (by simp [paint]) rfl, (keeps.2.1 {} anchor _ rfl).2, ?_⟩
  exact keeps.2.2 _ last (.calls {} full [paint, anchor]) fun event member =>
    uncleared _ (Drawing.call_mem_of_mem_events member)

/-- An anchor without a spelling is stored though room ran out. -/
theorem exhausted_drawing_stores_anchor :
    let full := (Drawing.start { maxBytes := some 4 } ⟨10, 10, .empty⟩).calls {}
      [.instruct (.bracket .openScope)]
    let anchored := full.call {} (.instruct (.setting (.gravity .fixed)))
    full.poisoned = true ∧ anchored.2 = .done ∧ anchored.1.contexts.depth = 1 ∧
      anchored.1.context.gravity ≠ full.context.gravity := by
  decide +kernel

end Quill
