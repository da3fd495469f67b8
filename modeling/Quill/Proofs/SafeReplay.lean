import Quill.Proofs.Capture
import Quill.Proofs.Refusals
import Quill.Proofs.Truncation

/-!
# Safe replays

A replay could come to grief in two ways: a composite without an extent breaks a promise, and a
text cannot be cut off inside a character.  A replay that gives up in either case does the same as
one that does not look.  The byte offset that an open pattern remembers stays a position of the
program, whatever is written, taken back or dropped, and no command fails because what it writes
is too long.
-/

namespace Quill

/-- Carry out a plan, or give up at a cut that cannot be made. -/
def Plan.run? (drawing : Drawing) : Plan → Option (Drawing × Outcome)
  | .write pieces change =>
    if drawing.poisoned then some (drawing.fail .poisoned)
    else do
      match ← drawing.buffer.putAll? drawing.layout pieces with
      | (buffer, .ok _) => some (change.apply { drawing with buffer := buffer }, .done)
      | (buffer, .error failure) => some (Drawing.fail { drawing with buffer := buffer } failure)
  | .refuse failure => some (drawing.fail failure)
  | .keep => some (drawing, .done)
  | .adjust change => some (Plan.run drawing (.adjust change))
  | .close text change => some (Plan.run drawing (.close text change))

/-- Do one command, or give up at a broken promise or a cut that cannot be made. -/
def Command.run? (tools : Tools) (files : FileReader) (base : String) (drawing : Drawing)
    (command : Command) : Option (Drawing × Outcome) :=
  match command.call? files base with
  | .error failure => some (drawing, .failed failure)
  | .ok call => (call.plan? tools drawing).bind (Plan.run? drawing)

/-- Do commands up to the first that fails, or give up. -/
def replayFrom? (tools : Tools) (files : FileReader) (base : String) (index : Nat)
    (drawing : Drawing) : List Command → Option (Drawing × Replayed)
  | [] => some (drawing, .done)
  | command :: rest => do
    match ← command.run? tools files base drawing with
    | (after, .done) => replayFrom? tools files base (index + 1) after rest
    | (after, .failed failure) => some (after, .stopped index failure)
    | (_, .aborted _) => none

section Checking

variable {tools : Tools} {files : FileReader} {base : String} {drawing : Drawing} {index : Nat}
  {command : Command} {commands : List Command}

theorem Plan.run?_eq (plan : Plan) : plan.run? drawing = some (plan.run drawing) := by
  cases plan with
  | write pieces change =>
      rw [run?, run, Buffer.putAll?_eq, Option.bind_eq_bind, Option.bind_some]
      cases drawing.poisoned with
      | true => rfl
      | false =>
          rcases drawing.buffer.putAll drawing.layout pieces with ⟨buffer, failure | count⟩ <;> rfl
  | _ => rfl

/-- The call of a command always has a plan, as a composite of a script has an extent. -/
theorem Command.planned (tools : Tools) (drawing : Drawing) {call : Call}
    (called : command.call? files base = .ok call) :
    ∃ plan, call.plan? tools drawing = some plan := by
  rcases Command.call?_cases called with ⟨instruction, rfl⟩ | ⟨placement, picture, extended, rfl⟩
  · exact ⟨_, rfl⟩
  · cases planned : (Call.composite placement picture).plan? tools drawing with
    | some plan => exact ⟨plan, rfl⟩
    | none =>
        have flat := (Drawing.composite_of_unplanned planned).1
        rw [extended] at flat
        cases flat

theorem Command.run?_eq (command : Command) :
    command.run? tools files base drawing = some (command.run tools files base drawing) := by
  rw [run?, run_eq_call?]
  cases called : command.call? files base with
  | error failure => rfl
  | ok call =>
      obtain ⟨plan, planned⟩ := Command.planned tools drawing called
      simp only [planned, Option.bind_some, Plan.run?_eq, Drawing.call_eq_run planned]

theorem Command.run_not_aborted (command : Command) (promise : String) :
    (command.run tools files base drawing).2 ≠ .aborted promise := by
  rw [run_eq_call?]
  cases called : command.call? files base with
  | error failure => exact Outcome.noConfusion
  | ok call =>
      obtain ⟨plan, planned⟩ := Command.planned tools drawing called
      dsimp only
      rw [Drawing.call_eq_run planned]
      intro aborted
      exact Plan.run_not_aborted (Prod.ext rfl aborted)

theorem replayFrom?_eq (commands : List Command) :
    replayFrom? tools files base index drawing commands =
      some (replayFrom tools files base index drawing commands) := by
  induction commands generalizing index drawing with
  | nil => rfl
  | cons command rest ih =>
      rw [replayFrom?, replayFrom, Command.run?_eq, Option.bind_eq_bind, Option.bind_some]
      rcases ran : command.run tools files base drawing with ⟨after, outcome⟩
      cases outcome with
      | done => exact ih
      | failed failure => rfl
      | aborted promise => exact (command.run_not_aborted promise (congrArg Prod.snd ran)).elim

theorem replayFrom_not_aborted (commands : List Command) (promise : String) :
    (replayFrom tools files base index drawing commands).2 ≠ .aborted promise := by
  induction commands generalizing index drawing with
  | nil => exact Replayed.noConfusion
  | cons command rest ih =>
      rw [replayFrom]
      split
      · exact ih
      · exact Replayed.noConfusion
      · rename_i after broken ran
        exact (command.run_not_aborted broken (congrArg Prod.snd ran)).elim

end Checking

/-- The text of an open pattern begins at a position of the program. -/
def Drawing.Positioned (drawing : Drawing) : Prop :=
  ∀ capture, drawing.pattern = some capture → drawing.buffer.HasPosition capture.offset

section Offsets

variable {tools : Tools} {drawing after : Drawing} {call : Call} {outcome : Outcome}

theorem Drawing.Positioned.grow {added : String} (positioned : drawing.Positioned)
    (pattern : after.pattern = drawing.pattern) (text : after.program = drawing.program ++ added) :
    after.Positioned := by
  intro capture opened
  rw [pattern] at opened
  exact (positioned capture opened).append text

theorem Effect.positioned (effect : Effect tools drawing call after outcome)
    (positioned : drawing.Positioned) : after.Positioned := by
  cases effect with
  | wrote planned plain inner usable =>
      obtain ⟨added, grows⟩ := Buffer.wroteEach_grows drawing.layout drawing.buffer _
      refine positioned.grow ?_ ((Change.apply_program ..).trans grows.text)
      cases inner <;> rfl
  | @opened bracket text change opens usable =>
      have grows := Buffer.extended_grows drawing.buffer (text ++ "\n")
      cases opens with
      | pattern vacant =>
          intro capture opened
          cases opened
          exact Buffer.hasPosition_size _
      | scope | clipPath | defs => exact positioned.grow rfl grows.text
  | @closed bracket text change closes usable =>
      have grows := Buffer.extended_grows drawing.buffer.indentOut (text ++ "\n")
      cases closes with
      | pattern opened => exact nofun
      | scope nested =>
          exact positioned.grow (Change.apply_closeScope_pattern _)
            ((Change.apply_program ..).trans grows.text)
      | clipPath opened | defs opened => exact positioned.grow rfl grows.text
  | dropped =>
      intro capture opened
      obtain ⟨before, pattern, rfl⟩ := Option.map_eq_some_iff.mp opened
      exact Buffer.hasPosition_zero _
  | cleared => exact nofun
  | failed | kept | adjusted | aborted | refused | rendered | misdrawn | forgotten =>
      exact positioned

/-- What holds of new drawings and is kept by every effect holds of every reachable drawing. -/
theorem Reachable.of_effects {holds : Drawing → Prop}
    (start : ∀ settings canvas, holds (Drawing.start settings canvas))
    (kept : ∀ {tools drawing call after outcome},
      Effect tools drawing call after outcome → holds drawing → holds after)
    (reachable : Reachable drawing) : holds drawing := by
  refine (@Reachable.invariant drawing (fun drawing => Balanced drawing ∧ holds drawing)
    (fun settings canvas => ⟨balanced_start settings canvas, start settings canvas⟩)
    ?_ reachable).2
  rintro tools drawing call next outcome called ⟨balanced, held⟩
  have effect := balanced.effect called
  exact ⟨effect.balanced balanced, kept effect held⟩

/-- In every reachable drawing the text of an open pattern begins at a position. -/
theorem Reachable.positioned (reachable : Reachable drawing) : drawing.Positioned :=
  reachable.of_effects (fun _ _ => nofun) Effect.positioned

end Offsets

section Formats

variable {tools : Tools} {files : FileReader} {base : String} {drawing : Drawing}

theorem Failure.Refusal.ne_format {failure : Failure} (refusal : failure.Refusal)
    (reason : String) : failure ≠ .format reason := by
  cases refusal <;> exact Failure.noConfusion

theorem Png.encode_ne_format (picture : Picture) (reason : String) :
    Png.encode picture ≠ .error (.format reason) := by
  rw [Png.encode]
  split <;> simp

theorem loadPicture_ne_format (source reason : String) :
    loadPicture files base source ≠ .error (.format reason) := by
  intro failed
  simp only [loadPicture] at failed
  grind

theorem Command.call?_ne_format (command : Command) (reason : String) :
    command.call? files base ≠ .error (.format reason) := by
  intro refused
  cases command with
  | instruct instruction => cases refused
  | composite placement source =>
      rw [call?] at refused
      split at refused
      · exact loadPicture_ne_format source reason (error_of_map_error refused)
      · cases refused

/-- Without an encoder that says so, no command fails because it writes what is too long. -/
theorem Command.run_ne_format (encoder : tools.encode = Png.encode) (command : Command)
    (reason : String) : (command.run tools files base drawing).2 ≠ .failed (.format reason) := by
  intro failed
  rw [run_eq_call?] at failed
  cases called : command.call? files base with
  | error failure =>
      rw [called] at failed
      cases failed
      exact command.call?_ne_format reason called
  | ok call =>
      rw [called] at failed
      obtain ⟨plan, planned⟩ := Command.planned tools drawing called
      rcases Drawing.call_failure planned (Prod.ext rfl failed) with
        refusal | full | ⟨picture, encoding⟩
      · exact refusal.ne_format reason rfl
      · cases full
      · rw [encoder] at encoding
        exact Png.encode_ne_format picture reason encoding

end Formats

/-- Whatever a script holds and whatever its picture files are, its replay is done or stops at a
failure: no composite breaks its promise, every cut falls between two characters, and the text of
an open pattern always begins between two characters of the program.  No piece of an instruction
is too long to be written, so with the encoder of PNG files nothing fails for that. -/
theorem replays_are_safe (tools : Tools) (files : FileReader) (base : String)
    (settings : Settings) (canvas : Canvas) (commands : List Command) :
    let start := Drawing.start settings canvas
    replayFrom? tools files base 0 start commands =
        some (replay tools files base start commands) ∧
      ((replay tools files base start commands).2 = .done ∨
        ∃ index failure, (replay tools files base start commands).2 = .stopped index failure) ∧
      (∀ drawing, Passes tools files base start commands drawing →
        ∀ capture, drawing.pattern = some capture →
          drawing.buffer.HasPosition capture.offset ∧ capture.offset ≤ drawing.buffer.size) ∧
      (∀ (drawing : Drawing) (call : Call) (pieces : List Piece) (change : Change),
        call.plan? tools drawing = some (.write pieces change) →
          ∀ text, .wrapping text ∈ pieces → text.utf8ByteSize ≤ pieceLimit) ∧
      (tools.encode = Png.encode → ∀ index reason,
        (replay tools files base start commands).2 ≠ .stopped index (.format reason)) := by
  intro start
  refine ⟨replayFrom?_eq commands, ?_, ?_, ?_, ?_⟩
  · cases ended : (replay tools files base start commands).2 with
    | done => exact .inl rfl
    | stopped index failure => exact .inr ⟨index, failure, rfl⟩
    | aborted promise => exact (replayFrom_not_aborted commands promise ended).elim
  · intro drawing passes capture opened
    have position := (passes.reachable (.start settings canvas)).positioned capture opened
    exact ⟨position, position.le_size⟩
  · intro drawing call pieces change planned text member
    exact Call.plan?_short planned _ member
  · intro encoder index reason stopped
    obtain ⟨earlier, command, later, before, -, -, -, failed⟩ :=
      replayFrom_stopped (Prod.ext rfl stopped)
    exact command.run_ne_format encoder reason (congrArg Prod.snd failed)

/-- Room runs out in the middle of a list of points, inside a pattern whose name has more bytes
than characters. -/
theorem replays_are_safe_inside_pattern :
    let files : FileReader := fun _ => .error .notFound
    let start := Drawing.start { maxBytes := some 40 } ⟨8, 8, .empty⟩
    let script : List Command :=
      [.bracket (.openPattern "é" 0 0 8 8), .shape (.polygon [(1, 2), (3, 4)])]
    let last := (replay {} files "" start script).1
    (replay {} files "" start script).2 = .stopped 1 .outOfMemory ∧
      last.pattern = some ⟨"é", 24, ⟨0, 0, 8, 8⟩⟩ ∧ last.buffer.HasPosition 24 ∧
      " 1,2".utf8ByteSize ≤ pieceLimit ∧
      ∀ index reason, (replay {} files "" start script).2 ≠ .stopped index (.format reason) := by
  intro files start script last
  obtain ⟨checked, ends, offsets, short, formats⟩ :=
    replays_are_safe {} files "" { maxBytes := some 40 } ⟨8, 8, .empty⟩ script
  have opened : last.pattern = some ⟨"é", 24, ⟨0, 0, 8, 8⟩⟩ := by decide +kernel
  refine ⟨by decide +kernel, opened, (offsets last .last _ opened).1, ?_, formats rfl⟩
  exact short start (.instruct (.shape (.polygon [(1, 2), (3, 4)]))) _ _ rfl _ (by decide +kernel)

end Quill
