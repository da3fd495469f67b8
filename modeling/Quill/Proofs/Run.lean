import Quill.Drawing.Call

/-!
# Runs

A run is a list of calls, done one after the other, each with how it ended.  Every call may be
given tools of its own, so a run also covers a color table or an encoder that is replaced or
changes its mind.  A drawing is reachable if a run from a new drawing ends in it; what holds of
a new drawing and is kept by every call holds of every reachable drawing.
-/

namespace Quill

structure Event where
  call : Call
  outcome : Outcome

/-- The calls of a list, done in their order, lead from one drawing to another. -/
inductive Run : Drawing → List Event → Drawing → Prop
  | stay (drawing : Drawing) : Run drawing [] drawing
  | step {tools : Tools} {first next last : Drawing} {call : Call} {outcome : Outcome}
      {events : List Event} (called : first.call tools call = (next, outcome))
      (rest : Run next events last) : Run first (⟨call, outcome⟩ :: events) last

def Drawing.events (tools : Tools) (drawing : Drawing) : List Call → List Event
  | [] => []
  | call :: rest =>
      let (next, outcome) := drawing.call tools call
      ⟨call, outcome⟩ :: next.events tools rest

/-- A drawing that some calls lead to. -/
def Reachable (drawing : Drawing) : Prop :=
  ∃ settings canvas events, Run (Drawing.start settings canvas) events drawing

theorem forall_prefix_cons {α : Type} {first : α} {rest : List α} {holds : List α → Prop} :
    (∀ earlier, earlier <+: first :: rest → holds earlier) ↔
      holds [] ∧ ∀ earlier, earlier <+: rest → holds (first :: earlier) := by
  constructor
  · intro all
    exact ⟨all [] List.nil_prefix,
      fun earlier before => all _ (List.cons_prefix_cons.mpr ⟨rfl, before⟩)⟩
  · rintro ⟨none, some⟩ earlier before
    cases earlier with
    | nil => exact none
    | cons head tail =>
        obtain ⟨rfl, inner⟩ := List.cons_prefix_cons.mp before
        exact some tail inner

theorem Drawing.call_mem_of_mem_events {tools : Tools} {drawing : Drawing} {calls : List Call}
    {event : Event} (member : event ∈ drawing.events tools calls) : event.call ∈ calls := by
  induction calls generalizing drawing with
  | nil => cases member
  | cons first rest ih =>
      rcases List.mem_cons.mp member with rfl | later
      · exact List.mem_cons_self
      · exact List.mem_cons_of_mem _ (ih later)

theorem Drawing.call_of_outcome {tools : Tools} {drawing : Drawing} {call : Call}
    {outcome : Outcome} (ends : (drawing.call tools call).2 = outcome) :
    drawing.call tools call = ((drawing.call tools call).1, outcome) :=
  Prod.ext rfl ends

namespace Run

variable {tools : Tools} {first middle next last : Drawing} {call : Call} {outcome : Outcome}
  {events earlier later : List Event}

theorem append (before : Run first earlier middle) (after : Run middle later last) :
    Run first (earlier ++ later) last := by
  induction before with
  | stay drawing => exact after
  | step called _ ih => exact .step called (ih after)

theorem single (called : first.call tools call = (next, outcome)) :
    Run first [⟨call, outcome⟩] next :=
  .step called (.stay next)

theorem calls (tools : Tools) (drawing : Drawing) (calls : List Call) :
    Run drawing (drawing.events tools calls) (drawing.calls tools calls) := by
  induction calls generalizing drawing with
  | nil => exact .stay drawing
  | cons first rest ih => exact .step rfl (ih _)

theorem calls_done {calls : List Call}
    (done : ∀ event ∈ first.events tools calls, event.outcome = .done) :
    Run first (calls.map fun call => ⟨call, .done⟩) (first.calls tools calls) := by
  induction calls generalizing first with
  | nil => exact .stay first
  | cons call rest ih =>
      obtain ⟨called, others⟩ := List.forall_mem_cons.mp done
      exact .step (Prod.ext rfl called) (ih others)

theorem eq_of_nil (run : Run first [] last) : last = first := by
  cases run
  rfl

/-- The first call of a run, and the run behind it. -/
theorem head (run : Run first (⟨call, outcome⟩ :: events) last) :
    ∃ tools next, first.call tools call = (next, outcome) ∧ Run next events last := by
  cases run with
  | step called rest => exact ⟨_, _, called, rest⟩

/-- A run behind some events, and a run of these events. -/
theorem split (run : Run first (earlier ++ later) last) :
    ∃ middle, Run first earlier middle ∧ Run middle later last := by
  induction earlier generalizing first with
  | nil => exact ⟨first, .stay first, run⟩
  | cons event rest ih =>
      obtain ⟨tools, next, called, behind⟩ := run.head
      obtain ⟨middle, before, after⟩ := ih behind
      exact ⟨middle, .step called before, after⟩

/-- What every call keeps, a run keeps. -/
theorem invariant {holds : Drawing → Prop}
    (kept : ∀ {tools drawing call next outcome},
      drawing.call tools call = (next, outcome) → holds drawing → holds next)
    (run : Run first events last) (start : holds first) : holds last := by
  induction run with
  | stay drawing => exact start
  | step called _ ih => exact ih (kept called start)

end Run

namespace Reachable

variable {tools : Tools} {drawing next last : Drawing} {call : Call} {outcome : Outcome}
  {events : List Event}

theorem start (settings : Settings) (canvas : Canvas) :
    Reachable (Drawing.start settings canvas) :=
  ⟨settings, canvas, [], .stay _⟩

theorem of_run (reachable : Reachable drawing) (run : Run drawing events last) :
    Reachable last := by
  obtain ⟨settings, canvas, earlier, before⟩ := reachable
  exact ⟨settings, canvas, _, before.append run⟩

theorem of_call (reachable : Reachable drawing)
    (called : drawing.call tools call = (next, outcome)) : Reachable next :=
  reachable.of_run (.single called)

theorem of_calls (reachable : Reachable drawing) (tools : Tools) (calls : List Call) :
    Reachable (drawing.calls tools calls) := by
  exact reachable.of_run (.calls tools drawing calls)

/-- What holds of new drawings and is kept by every call holds of every reachable drawing. -/
theorem invariant {holds : Drawing → Prop}
    (start : ∀ settings canvas, holds (Drawing.start settings canvas))
    (kept : ∀ {tools drawing call next outcome},
      drawing.call tools call = (next, outcome) → holds drawing → holds next)
    (reachable : Reachable drawing) : holds drawing := by
  obtain ⟨settings, canvas, events, run⟩ := reachable
  exact run.invariant kept (start settings canvas)

end Reachable

end Quill
