import Quill.Proofs.Balance
import Quill.Proofs.Keys

/-!
# What a pattern publishes

An open pattern knows only the byte offset at which its text begins.  Calls go on appending
behind that offset, failed calls take back no more than they wrote, and dropping the program
moves the offset to the start of the new one.  So whatever happens until the pattern is closed,
the text that is published is what the program has grown by since the pattern was opened, or
since the program was last dropped.
-/

namespace Quill

section Frames

variable {tools : Tools} {drawing after : Drawing} {call : Call} {outcome : Outcome}
  {capture : Capture}

theorem Change.apply_settings (change : Change) (drawing : Drawing) :
    (change.apply drawing).settings = drawing.settings :=
  (change.apply_frame drawing).1

theorem Change.apply_program (change : Change) (drawing : Drawing) :
    (change.apply drawing).program = drawing.program :=
  (change.apply_frame drawing).2.1

theorem Change.apply_closeScope_pattern (drawing : Drawing) :
    (Change.closeScope.apply drawing).pattern = drawing.pattern := by
  rw [apply]
  split <;> rfl

/-- No call changes the settings. -/
theorem Effect.settings (effect : Effect tools drawing call after outcome) :
    after.settings = drawing.settings := by
  cases effect with
  | wrote planned plain inner usable => exact Change.apply_settings ..
  | opened opens usable => exact Change.apply_settings ..
  | closed closes usable => exact Change.apply_settings ..
  | _ => rfl

/-- The program only grows, unless it is dropped. -/
theorem Effect.program_grows (effect : Effect tools drawing call after outcome)
    (uncleared : call ≠ .clear) (undropped : call ≠ .dropProgram) :
    ∃ added, after.program = drawing.program ++ added := by
  have still : drawing.program = drawing.program ++ "" := String.append_empty.symm
  cases effect with
  | wrote planned plain inner usable =>
      obtain ⟨added, grows⟩ := Buffer.wroteEach_grows drawing.layout drawing.buffer _
      exact ⟨added, (Change.apply_program ..).trans grows.text⟩
  | opened opens usable =>
      exact ⟨_, (Change.apply_program ..).trans (Buffer.extended_grows drawing.buffer _).text⟩
  | closed closes usable =>
      exact ⟨_, (Change.apply_program ..).trans
        (Buffer.extended_grows drawing.buffer.indentOut _).text⟩
  | dropped => exact (undropped rfl).elim
  | cleared => exact (uncleared rfl).elim
  | _ => exact ⟨"", still⟩

/-- An open pattern stays open until it is closed. -/
theorem Effect.pattern_kept (effect : Effect tools drawing call after outcome)
    (opened : drawing.pattern = some capture) (uncleared : call ≠ .clear)
    (undropped : call ≠ .dropProgram)
    (unclosed : call = .instruct (.bracket .closePattern) → outcome ≠ .done) :
    after.pattern = some capture := by
  cases effect with
  | wrote planned plain inner usable => cases inner <;> exact opened
  | opened opens usable =>
      cases opens with
      | pattern vacant =>
          rw [vacant] at opened
          cases opened
      | _ => exact opened
  | closed closes usable =>
      cases closes with
      | scope nested => exact (Change.apply_closeScope_pattern _).trans opened
      | pattern opened => exact (unclosed rfl rfl).elim
      | clipPath opened' => exact opened
      | defs opened' => exact opened
  | dropped => exact (undropped rfl).elim
  | cleared => exact (uncleared rfl).elim
  | _ => exact opened

end Frames

/-- The text that a call appended. -/
def Drawing.added (before after : Drawing) : String :=
  after.buffer.since before.buffer.size

section Added

variable {drawing after : Drawing}

theorem Drawing.added_eq {written : String}
    (text : after.buffer.text = drawing.buffer.text ++ written) :
    drawing.added after = written :=
  Buffer.since_append text

theorem Drawing.added_nothing (same : after.buffer.text = drawing.buffer.text) :
    drawing.added after = "" := by
  refine added_eq ?_
  rw [same, String.append_empty]

theorem Change.added_apply {buffer : Buffer} {written : String} (change : Change)
    (text : buffer.text = drawing.buffer.text ++ written) :
    drawing.added (change.apply { drawing with buffer := buffer }) = written := by
  have program := change.apply_program { drawing with buffer := buffer }
  exact Drawing.added_eq (program.trans text)

end Added

/-- A pattern is open, and its text is what stands in the program behind a base. -/
structure Records (drawing : Drawing) (id : String) (bounds : PatternBounds)
    (base body : String) : Prop where
  pattern : drawing.pattern = some ⟨id, base.utf8ByteSize, bounds⟩
  program : drawing.program = base ++ body

section Recording

variable {tools : Tools} {drawing after last : Drawing} {call : Call} {outcome : Outcome}
  {id base body : String} {bounds : PatternBounds} {events : List Event}

theorem Records.append {added : String} (records : Records drawing id bounds base body)
    (pattern : after.pattern = drawing.pattern) (text : after.program = drawing.program ++ added) :
    Records after id bounds base (body ++ added) := by
  refine ⟨pattern.trans records.pattern, ?_⟩
  rw [text, records.program, String.append_assoc]

theorem Effect.records (effect : Effect tools drawing call after outcome)
    (records : Records drawing id bounds base body) (uncleared : call ≠ .clear)
    (undropped : call ≠ .dropProgram)
    (unclosed : call = .instruct (.bracket .closePattern) → outcome ≠ .done) :
    ∃ added, Records after id bounds base (body ++ added) := by
  obtain ⟨added, program⟩ := effect.program_grows uncleared undropped
  have kept := effect.pattern_kept records.pattern uncleared undropped unclosed
  exact ⟨added, records.append (kept.trans records.pattern.symm) program⟩

/-- Behind a program that is dropped the text of an open pattern begins anew. -/
theorem Records.dropProgram (records : Records drawing id bounds base body) :
    Records drawing.dropProgram id bounds "" "" := by
  refine ⟨?_, rfl⟩
  rw [Drawing.dropProgram, records.pattern]
  rfl

/-- Through any run that neither clears the drawing nor closes the pattern, the text of an open
pattern goes on behind its base, or behind the start of a program that was begun anew. -/
theorem Records.of_run (records : Records drawing id bounds base body)
    (reachable : Reachable drawing) (run : Run drawing events last)
    (uncleared : ∀ event ∈ events, event.call ≠ .clear)
    (unclosed : ⟨.instruct (.bracket .closePattern), .done⟩ ∉ events) :
    ∃ base' body', Records last id bounds base' body' ∧
      ((∀ event ∈ events, event.call ≠ .dropProgram) → base' = base) ∧
      ((∃ event ∈ events, event.call = .dropProgram) → base' = "") := by
  induction run generalizing base body with
  | stay drawing => exact ⟨base, body, records, fun _ => rfl, by simp⟩
  | @step tools first next last call outcome events called rest ih =>
      have effect := reachable.effect called
      have uncleared' : ∀ event ∈ events, event.call ≠ .clear :=
        fun event member => uncleared event (List.mem_cons_of_mem _ member)
      have unclosed' := fun member => unclosed (List.mem_cons_of_mem _ member)
      have nextReachable := reachable.of_call called
      by_cases dropped : call = .dropProgram
      · subst dropped
        cases called
        obtain ⟨base', body', recorded, kept, anew⟩ :=
          ih records.dropProgram nextReachable uncleared' unclosed'
        refine ⟨base', body', recorded, ?_, fun _ => ?_⟩
        · intro undropped
          exact (undropped _ List.mem_cons_self rfl).elim
        · by_cases again : ∃ event ∈ events, event.call = .dropProgram
          · exact anew again
          · push Not at again
            exact kept again
      · obtain ⟨added, grown⟩ :=
          effect.records records (uncleared _ List.mem_cons_self) dropped
            (by rintro rfl rfl; exact unclosed List.mem_cons_self)
        obtain ⟨base', body', recorded, kept, anew⟩ :=
          ih grown nextReachable uncleared' unclosed'
        refine ⟨base', body', recorded, ?_, ?_⟩
        · intro undropped
          exact kept fun event member => undropped event (List.mem_cons_of_mem _ member)
        · rintro ⟨event, member, found⟩
          rcases List.mem_cons.mp member with rfl | later
          · exact (dropped found).elim
          · exact anew ⟨event, later, found⟩

/-- Opening a pattern begins its text at the end of the program. -/
theorem Effect.begins {x y width height : Float}
    (effect : Effect tools drawing
      (.instruct (.bracket (.openPattern id x y width height))) after .done) :
    Records after id (.ofRectangle x y width height) after.program "" := by
  rcases effect.bracket_done with ⟨text, change, opens, rfl⟩ | ⟨text, change, closes, _⟩
  · cases opens
    exact ⟨rfl, String.append_empty.symm⟩
  · cases closes

/-- Closing a pattern writes the closing line and publishes what was recorded before it. -/
theorem Effect.publishes (effect : Effect tools drawing
      (.instruct (.bracket .closePattern)) after .done)
    (records : Records drawing id bounds base body) :
    after.canvas =
        drawing.canvas.publish drawing.settings.geometryKey
          ⟨id, base.utf8ByteSize, bounds⟩ body ∧
      ∃ padding, after.program = drawing.program ++ (spaces padding ++ "pop pattern\n") := by
  rcases effect.bracket_done with ⟨text, change, opens, _⟩ | ⟨text, change, closes, rfl⟩
  · cases opens
  · cases closes with
    | pattern opened =>
        rw [records.pattern] at opened
        cases opened
        refine ⟨?_, _, (Buffer.extended_grows drawing.buffer.indentOut _).text⟩
        rw [Buffer.since_append records.program]
        rfl

end Recording

theorem Run.settings {first last : Drawing} {events : List Event} (run : Run first events last)
    (reachable : Reachable first) : last.settings = first.settings := by
  induction run with
  | stay drawing => rfl
  | step called rest ih =>
      rw [ih (reachable.of_call called)]
      exact (reachable.effect called).settings

theorem Canvas.publish_separate (canvas : Canvas) (capture : Capture) (body key : String) :
    (canvas.publish .separate capture body).artifact? key =
      if key = geometryKey capture.id then some capture.bounds.text
      else if key = patternKey capture.id then some body
      else canvas.artifact? key := by
  simp only [publish, artifact?_setArtifact]

theorem Canvas.publish_shared (canvas : Canvas) (capture : Capture) (body key : String) :
    (canvas.publish .shared capture body).artifact? key =
      if key = patternKey capture.id then some capture.bounds.text
      else canvas.artifact? key := by
  simp only [publish, artifact?_setArtifact]
  split <;> rfl

/-- Whatever calls stand between the opening of a pattern and its closing, the closing publishes
what the program has grown by behind the opening line, or all of the program if it was dropped
in between, and no two patterns of different names share a key. -/
theorem closing_publishes_pattern {drawing opened inside closed : Drawing} {events : List Event}
    {opening closing : Tools} {id : String} {x y width height : Float}
    (reachable : Reachable drawing)
    (opens : drawing.call opening (.instruct (.bracket (.openPattern id x y width height))) =
      (opened, .done))
    (between : Run opened events inside)
    (uncleared : ∀ event ∈ events, event.call ≠ .clear)
    (unclosed : ⟨.instruct (.bracket .closePattern), .done⟩ ∉ events)
    (closes : inside.call closing (.instruct (.bracket .closePattern)) = (closed, .done)) :
    (∃ body padding,
      ((∀ event ∈ events, event.call ≠ .dropProgram) → inside.program = opened.program ++ body) ∧
      ((∃ event ∈ events, event.call = .dropProgram) → inside.program = body) ∧
      closed.program = inside.program ++ (spaces padding ++ "pop pattern\n") ∧
      (drawing.settings.geometryKey = .separate →
        closed.canvas.artifact? (patternKey id) = some body ∧
        closed.canvas.artifact? (geometryKey id) =
          some (PatternBounds.ofRectangle x y width height).text ∧
        ∀ key, key ≠ patternKey id → key ≠ geometryKey id →
          closed.canvas.artifact? key = inside.canvas.artifact? key) ∧
      (drawing.settings.geometryKey = .shared →
        closed.canvas.artifact? (patternKey id) =
          some (PatternBounds.ofRectangle x y width height).text ∧
        ∀ key, key ≠ patternKey id →
          closed.canvas.artifact? key = inside.canvas.artifact? key)) ∧
    patternKey.Injective ∧ geometryKey.Injective ∧
      ∀ first second, patternKey first ≠ geometryKey second := by
  refine ⟨?_, patternKey_injective, geometryKey_injective, patternKey_ne_geometryKey⟩
  have openedReachable := reachable.of_call opens
  have insideReachable := openedReachable.of_run between
  have settings : inside.settings = drawing.settings :=
    (between.settings openedReachable).trans (reachable.effect opens).settings
  obtain ⟨base, body, recorded, kept, anew⟩ :=
    (reachable.effect opens).begins.of_run openedReachable between uncleared unclosed
  obtain ⟨published, padding, line⟩ := (insideReachable.effect closes).publishes recorded
  rw [settings] at published
  refine ⟨body, padding, ?_, ?_, line, ?_, ?_⟩
  · intro undropped
    rw [recorded.program, kept undropped]
  · intro dropped
    rw [recorded.program, anew dropped, String.empty_append]
  · intro separate
    rw [separate] at published
    refine ⟨?_, ?_, ?_⟩
    · rw [published, Canvas.publish_separate, if_neg (patternKey_ne_geometryKey id id),
        if_pos rfl]
    · rw [published, Canvas.publish_separate, if_pos rfl]
    · intro key notBody notBounds
      rw [published, Canvas.publish_separate, if_neg notBounds, if_neg notBody]
  · intro shared
    rw [shared] at published
    refine ⟨?_, ?_⟩
    · rw [published, Canvas.publish_shared, if_pos rfl]
    · intro key notBody
      rw [published, Canvas.publish_shared, if_neg notBody]

/-- A pattern with a crossing definition, a failed closing and a dropped program inside. -/
theorem closing_publishes_interrupted_pattern :
    ∃ drawing : Drawing, Reachable drawing ∧
      drawing.canvas.artifact? (patternKey "p") = some "  point 1,2\n pop defs\n" ∧
      drawing.canvas.artifact? (geometryKey "p") = some "8x8+0+1" := by
  let opened := (Drawing.start {} ⟨64, 64, .empty⟩).calls {}
    [.instruct (.bracket (.openPattern "p" 0 1 8 8))]
  let calls : List Call := [.instruct (.bracket .openDefs), .instruct (.bracket .closeClipPath),
    .dropProgram, .instruct (.shape (.point 1 2)), .instruct (.bracket .closeDefs)]
  have reachable := Reachable.start {} ⟨64, 64, .empty⟩
  have opens : (Drawing.start {} ⟨64, 64, .empty⟩).call {}
      (.instruct (.bracket (.openPattern "p" 0 1 8 8))) = (opened, .done) :=
    Prod.ext rfl (by decide +kernel)
  have between := Run.calls {} opened calls
  have closes : (opened.calls {} calls).call {} (.instruct (.bracket .closePattern)) =
      (_, .done) :=
    Prod.ext rfl (by decide +kernel)
  have dropped : ∃ event ∈ opened.events {} calls, event.call = .dropProgram := by
    simp [Drawing.events, calls]
  obtain ⟨⟨body, padding, kept, anew, line, separate, shared⟩, -⟩ :=
    closing_publishes_pattern reachable opens between
      (fun event member cleared => by
        have called := Drawing.call_mem_of_mem_events member
        simp [calls, cleared] at called)
      (fun member => by
        have called := Drawing.call_mem_of_mem_events member
        simp [calls] at called)
      closes
  obtain ⟨text, bounds, -⟩ := separate rfl
  refine ⟨_, ((reachable.of_call opens).of_run between).of_call closes, ?_, ?_⟩
  · rw [text, ← anew dropped]
    decide +kernel
  · rw [bounds]
    decide +kernel

end Quill
