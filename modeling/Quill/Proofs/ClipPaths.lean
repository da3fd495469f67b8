import Quill.Proofs.Balance
import Quill.Proofs.Keys

/-!
# Finished clip paths

Clip paths are closed in the order opposite to that in which they were opened.  A name is among
those of the finished clip paths exactly if, since the drawing was cleared, a clip path of that
name was opened and the closing that matches this opening succeeded.
-/

namespace Quill

def Event.opensClip (id : String) : Event :=
  ⟨.instruct (.bracket (.openClipPath id)), .done⟩

def Event.closesClip : Event :=
  ⟨.instruct (.bracket .closeClipPath), .done⟩

/-- An event that opens no clip path, closes none and does not clear the drawing. -/
structure Event.OffClips (event : Event) : Prop where
  opens : ∀ id, event ≠ .opensClip id
  closes : event ≠ .closesClip
  clears : event.call ≠ .clear

/-- Events among which openings and closings of clip paths match. -/
inductive ClipsMatch : List Event → Prop
  | nil : ClipsMatch []
  | other {event : Event} {rest : List Event} (off : event.OffClips) (after : ClipsMatch rest) :
      ClipsMatch (event :: rest)
  | pair (id : String) {inner rest : List Event} (inside : ClipsMatch inner)
      (after : ClipsMatch rest) : ClipsMatch (.opensClip id :: (inner ++ .closesClip :: rest))

/-- A clip path was opened and closed, and the drawing was not cleared since. -/
def ClipFinished (id : String) (events : List Event) : Prop :=
  ∃ earlier inner later,
    events = earlier ++ .opensClip id :: (inner ++ .closesClip :: later) ∧ ClipsMatch inner ∧
      ∀ event ∈ later, event.call ≠ .clear

/-- The clip paths that are open behind events, the innermost first. -/
inductive ClipsOpen : List Event → List String → Prop
  | start {inner : List Event} (inside : ClipsMatch inner) : ClipsOpen inner []
  | cleared (earlier : List Event) (outcome : Outcome) {inner : List Event}
      (inside : ClipsMatch inner) : ClipsOpen (earlier ++ ⟨.clear, outcome⟩ :: inner) []
  | opened (id : String) {earlier inner : List Event} {outer : List String}
      (around : ClipsOpen earlier outer) (inside : ClipsMatch inner) :
      ClipsOpen (earlier ++ .opensClip id :: inner) (id :: outer)

/-- What an event does to clip paths. -/
inductive ClipStep (drawing after : Drawing) : Event → Prop
  | opened (id : String) (clips : after.openClips = id :: drawing.openClips)
      (finished : after.clipPaths = drawing.clipPaths) : ClipStep drawing after (.opensClip id)
  | closed (id : String) (clips : drawing.openClips = id :: after.openClips)
      (finished : after.clipPaths = drawing.clipPaths.insert id ()) :
      ClipStep drawing after .closesClip
  | cleared (outcome : Outcome) (clips : after.openClips = [])
      (finished : after.clipPaths = .empty) : ClipStep drawing after ⟨.clear, outcome⟩
  | other {event : Event} (off : event.OffClips) (clips : after.openClips = drawing.openClips)
      (finished : after.clipPaths = drawing.clipPaths) : ClipStep drawing after event

section Events

variable {event : Event} {first second events inner later : List Event} {stack : List String}
  {id : String}

theorem ClipsMatch.append (before : ClipsMatch first) (after : ClipsMatch second) :
    ClipsMatch (first ++ second) := by
  induction before with
  | nil => exact after
  | other off _ ih => exact .other off ih
  | pair id inside _ _ ih =>
      rw [List.cons_append, List.append_assoc, List.cons_append]
      exact .pair id inside ih

theorem ClipsOpen.extend (opened : ClipsOpen events stack) (inside : ClipsMatch later) :
    ClipsOpen (events ++ later) stack := by
  cases opened with
  | start before => exact .start (before.append inside)
  | cleared earlier outcome before =>
      rw [List.append_assoc, List.cons_append]
      exact .cleared earlier outcome (before.append inside)
  | opened id around before =>
      rw [List.append_assoc, List.cons_append]
      exact .opened id around (before.append inside)

theorem ClipsOpen.close (opened : ClipsOpen events (id :: stack)) :
    ClipsOpen (events ++ [.closesClip]) stack ∧ ClipFinished id (events ++ [.closesClip]) := by
  cases opened with
  | @opened _ earlier inner _ around inside =>
      rw [List.append_assoc, List.cons_append]
      exact ⟨around.extend (.pair id inside .nil), earlier, inner, [], rfl, inside, by simp⟩

theorem ClipFinished.kept (finished : ClipFinished id events) (uncleared : event.call ≠ .clear) :
    ClipFinished id (events ++ [event]) := by
  obtain ⟨earlier, inner, later, rfl, inside, uncleared'⟩ := finished
  refine ⟨earlier, inner, later ++ [event], by simp, inside, ?_⟩
  simpa [or_imp, forall_and] using ⟨uncleared', uncleared⟩

end Events

section Steps

variable {tools : Tools} {drawing after first last : Drawing} {call : Call} {outcome : Outcome}
  {event : Event} {earlier events : List Event} {id : String}

theorem Event.offClips_of_failed {failure : Failure} (uncleared : call ≠ .clear) :
    Event.OffClips ⟨call, .failed failure⟩ := by
  refine ⟨?_, ?_, uncleared⟩
  · intro id equal
    cases equal
  · intro equal
    cases equal

theorem Event.offClips_of_other (uncleared : call ≠ .clear)
    (unopened : ∀ id, call ≠ .instruct (.bracket (.openClipPath id)))
    (unclosed : call ≠ .instruct (.bracket .closeClipPath)) : Event.OffClips ⟨call, outcome⟩ := by
  refine ⟨?_, ?_, uncleared⟩
  · intro id equal
    exact unopened id (congrArg Event.call equal)
  · intro equal
    exact unclosed (congrArg Event.call equal)

theorem Call.ne_clear_of_planned {plan : Plan} (planned : call.plan? tools drawing = some plan) :
    call ≠ .clear := by
  rintro rfl
  cases planned

theorem Effect.clipStep (effect : Effect tools drawing call after outcome) :
    ClipStep drawing after ⟨call, outcome⟩ := by
  have ofPlain : ∀ {call : Call} {plan : Plan}, call.plan? tools drawing = some plan →
      call.Plain → Event.OffClips ⟨call, .done⟩ := by
    intro call plan planned plain
    exact Event.offClips_of_other (Call.ne_clear_of_planned planned) (fun _ => plain _) (plain _)
  cases effect with
  | failed planned =>
      exact .other (Event.offClips_of_failed (Call.ne_clear_of_planned planned)) rfl rfl
  | kept planned plain | adjusted planned plain => exact .other (ofPlain planned plain) rfl rfl
  | wrote planned plain inner usable => cases inner <;> exact .other (ofPlain planned plain) rfl rfl
  | opened opens usable =>
      cases opens with
      | clipPath => exact .opened _ rfl rfl
      | _ => exact .other (Event.offClips_of_other (by simp) (by simp) (by simp)) rfl rfl
  | closed closes usable =>
      cases closes with
      | clipPath opened => exact .closed _ opened rfl
      | scope nested =>
          obtain ⟨top, outer, popped, -⟩ := ContextStack.pop?_of_nested nested
          simp only [Change.apply, popped]
          exact .other (Event.offClips_of_other (by simp) (by simp) (by simp)) rfl rfl
      | _ => exact .other (Event.offClips_of_other (by simp) (by simp) (by simp)) rfl rfl
  | cleared => exact .cleared _ rfl rfl
  | _ => exact .other (Event.offClips_of_other (by simp) (by simp) (by simp)) rfl rfl

theorem Run.clipStep (reachable : Reachable first) (run : Run first (event :: events) last) :
    ∃ next, ClipStep first next event ∧ Reachable next ∧ Run next events last := by
  rcases event with ⟨call, outcome⟩
  obtain ⟨tools, next, called, rest⟩ := run.head
  exact ⟨next, (reachable.effect called).clipStep, reachable.of_call called, rest⟩

/-- Where openings and closings match, the clip paths that are open do not change. -/
theorem ClipsMatch.openClips (inside : ClipsMatch events) (reachable : Reachable first)
    (run : Run first events last) : last.openClips = first.openClips := by
  induction inside generalizing first last with
  | nil => rw [run.eq_of_nil]
  | other off _ ih =>
      obtain ⟨next, step, reached, rest⟩ := run.clipStep reachable
      rw [ih reached rest]
      cases step with
      | opened id clips finished => exact (off.opens id rfl).elim
      | closed id clips finished => exact (off.closes rfl).elim
      | cleared outcome clips finished => exact (off.clears rfl).elim
      | other _ clips finished => exact clips
  | pair id _ _ insideIH afterIH =>
      obtain ⟨opened, opens, reached, rest⟩ := run.clipStep reachable
      obtain ⟨inner, before, behind⟩ := rest.split
      obtain ⟨closed, closes, reached', rest⟩ := behind.clipStep (reached.of_run before)
      have same := insideIH reached before
      rw [afterIH reached' rest]
      cases opens with
      | opened _ clips _ =>
          cases closes with
          | closed _ clips' _ =>
              rw [clips', clips] at same
              exact (List.cons_eq_cons.mp same).2
          | other off _ _ => exact (off.closes rfl).elim
      | other off _ _ => exact (off.opens id rfl).elim

/-- A clip path that is finished stays so until the drawing is cleared. -/
theorem Run.finished_kept (reachable : Reachable first) (run : Run first events last)
    (uncleared : ∀ event ∈ events, event.call ≠ .clear)
    (finished : first.clipPaths.contains id = true) : last.clipPaths.contains id = true := by
  induction events generalizing first with
  | nil => rwa [run.eq_of_nil]
  | cons event rest ih =>
      obtain ⟨here, later⟩ := List.forall_mem_cons.mp uncleared
      obtain ⟨next, step, reached, rest⟩ := run.clipStep reachable
      refine ih reached rest later ?_
      cases step with
      | closed name clips inserted => simp [inserted, Text.Table.contains_insert, finished]
      | cleared outcome clips emptied => exact (here rfl).elim
      | opened name clips same => rwa [same]
      | other off clips same => rwa [same]

/-- The matching closing finishes a clip path. -/
theorem ClipFinished.contains (finished : ClipFinished id events) (reachable : Reachable first)
    (run : Run first events last) : last.clipPaths.contains id = true := by
  obtain ⟨earlier, inner, later, rfl, inside, uncleared⟩ := finished
  obtain ⟨before, earlierRun, rest⟩ := run.split
  obtain ⟨opened, opens, reached, rest⟩ := rest.clipStep (reachable.of_run earlierRun)
  obtain ⟨filled, insideRun, rest⟩ := rest.split
  obtain ⟨closed, closes, reached', rest⟩ := rest.clipStep (reached.of_run insideRun)
  have same := inside.openClips reached insideRun
  refine rest.finished_kept reached' uncleared ?_
  cases opens with
  | opened _ clips _ =>
      cases closes with
      | closed name clips' inserted =>
          rw [clips', clips] at same
          rw [inserted, Text.Table.contains_insert, (List.cons_eq_cons.mp same).1]
          simp
      | other off _ _ => exact (off.closes rfl).elim
  | other off _ _ => exact (off.opens id rfl).elim

/-- What the events of a run tell about clip paths. -/
structure Drawing.ClipsTold (drawing : Drawing) (events : List Event) : Prop where
  opened : ClipsOpen events drawing.openClips
  finished : ∀ id, drawing.clipPaths.contains id = true → ClipFinished id events

theorem ClipStep.told (step : ClipStep drawing after event) (told : drawing.ClipsTold events) :
    after.ClipsTold (events ++ [event]) := by
  have later : event.call ≠ .clear → ∀ id, drawing.clipPaths.contains id = true →
      ClipFinished id (events ++ [event]) :=
    fun uncleared id contained => (told.finished id contained).kept uncleared
  cases step with
  | opened id clips same =>
      constructor
      · rw [clips]
        exact .opened id told.opened .nil
      · rw [same]
        exact later nofun
  | closed id clips inserted =>
      have opened := told.opened
      rw [clips] at opened
      constructor
      · exact opened.close.1
      · intro name contained
        rw [inserted, Text.Table.contains_insert, Bool.or_eq_true, decide_eq_true_eq] at contained
        rcases contained with rfl | contained
        · exact opened.close.2
        · exact later nofun name contained
  | cleared outcome clips emptied =>
      constructor
      · rw [clips]
        exact .cleared events outcome .nil
      · intro id contained
        rw [emptied] at contained
        cases contained
  | other off clips same =>
      constructor
      · rw [clips]
        exact told.opened.extend (.other off .nil)
      · rw [same]
        exact later off.clears

theorem Run.clipsTold (reachable : Reachable first) (told : first.ClipsTold earlier)
    (run : Run first events last) : last.ClipsTold (earlier ++ events) := by
  induction events generalizing first earlier with
  | nil => rwa [run.eq_of_nil, List.append_nil]
  | cons event rest ih =>
      obtain ⟨next, step, reached, behind⟩ := run.clipStep reachable
      rw [← List.singleton_append, ← List.append_assoc]
      exact ih reached (step.told told) behind

theorem Drawing.clipsTold_start (settings : Settings) (canvas : Canvas) :
    (start settings canvas).ClipsTold [] :=
  ⟨.start .nil, nofun⟩

/-- The finished clip paths are those that the events of a run tell of. -/
theorem Run.mem_clipPaths_iff {settings : Settings} {canvas : Canvas}
    (run : Run (Drawing.start settings canvas) events drawing) :
    id ∈ drawing.clipPaths.keys ↔ ClipFinished id events := by
  have reachable := Reachable.start settings canvas
  rw [Text.Table.mem_keys]
  constructor
  · exact (run.clipsTold reachable (Drawing.clipsTold_start settings canvas)).finished id
  · intro finished
    exact finished.contains reachable run

end Steps

end Quill
