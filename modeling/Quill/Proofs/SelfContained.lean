import Quill.Proofs.BracketReading
import Quill.Proofs.LimitedRun
import Quill.Proofs.Surroundings

/-!
# Patterns that close what they open

The brackets that are read in the text of a pattern are those that were opened and closed at the
start of a line while the pattern was open, in their order.  So the text is self-contained exactly
if nothing was closed that had been opened around the pattern and everything opened inside was
closed again; nothing in a drawing enforces that.
-/

namespace Quill

/-- The brackets that can be opened and closed while a pattern is open. -/
inductive Nesting where
  | scope
  | clipPath
  | defs
  deriving DecidableEq

def Nesting.word : Nesting → String
  | .scope => "graphic-context"
  | .clipPath => "clip-path"
  | .defs => "defs"

/-- How deep brackets of a kind are nested. -/
def Drawing.level (drawing : Drawing) : Nesting → Nat
  | .scope => drawing.contexts.depth
  | .clipPath => drawing.openClips.length
  | .defs => drawing.openDefs

/-- What a call does to the levels, and what it tells of brackets. -/
inductive LevelStep (drawing after : Drawing) : Option BracketLine → Prop
  | keep (same : ∀ kind, after.level kind = drawing.level kind) : LevelStep drawing after none
  | push (kind : Nesting)
      (deeper : ∀ other, after.level other = drawing.level other + if other = kind then 1 else 0) :
      LevelStep drawing after (some (.push kind.word))
  | pop (kind : Nesting)
      (deeper : ∀ other, drawing.level other = after.level other + if other = kind then 1 else 0) :
      LevelStep drawing after (some (.pop kind.word))

/-- One drawing is as deep as another and some brackets that are left open. -/
structure Drawing.Above (drawing opened : Drawing) (left : List String) : Prop where
  level : ∀ kind, drawing.level kind = opened.level kind + left.count kind.word
  words : ∀ word ∈ left, ∃ kind : Nesting, word = kind.word

section Levels

variable {tools : Tools} {drawing after opened : Drawing} {call : Call} {outcome : Outcome}
  {capture : Capture} {left : List String} {kind other : Nesting} {requests : List Request}

theorem Nesting.word_beq (kind other : Nesting) :
    (kind.word == other.word) = decide (other = kind) := by
  cases kind <;> cases other <;> decide

theorem Drawing.within_iff : opened.Within drawing ↔
    (∀ kind, opened.level kind ≤ drawing.level kind) ∧ drawing.pattern.isSome := by
  constructor
  · intro within
    refine ⟨fun kind => ?_, within.pattern⟩
    cases kind with
    | scope => exact within.scopes
    | clipPath => exact within.clips
    | defs => exact within.defs
  · rintro ⟨levels, recorded⟩
    exact ⟨levels .scope, levels .clipPath, levels .defs, recorded⟩

theorem Effect.levelStep (effect : Effect tools drawing call after outcome)
    (recording : drawing.pattern = some capture) (recorded : after.pattern.isSome)
    (undropped : call ≠ .dropProgram) :
    LevelStep drawing after (if outcome = .done then call.bracketLine? else none) := by
  have keep : ∀ kind, drawing.level kind = drawing.level kind := fun _ => rfl
  cases effect with
  | failed planned | refused poisoned | misdrawn usable draws | aborted flat =>
      exact .keep fun kind => by cases kind <;> rfl
  | rendered usable draws | forgotten => exact .keep fun kind => by cases kind <;> rfl
  | kept planned plain =>
      rw [if_pos rfl, plain.bracketLine?]
      exact .keep keep
  | adjusted planned plain =>
      rw [if_pos rfl, plain.bracketLine?]
      refine .keep fun kind => ?_
      cases kind with
      | scope => exact ContextStack.depth_modify _ _
      | clipPath | defs => rfl
  | wrote planned plain inner usable =>
      rw [if_pos rfl, plain.bracketLine?]
      refine .keep fun kind => ?_
      cases inner with
      | context change =>
          cases kind with
          | scope => exact ContextStack.depth_modify _ _
          | clipPath | defs => rfl
      | nothing | path state => cases kind <;> rfl
  | opened opens usable =>
      cases opens with
      | scope => exact .push .scope fun other => by cases other <;> rfl
      | pattern vacant =>
          rw [vacant] at recording
          cases recording
      | clipPath => exact .push .clipPath fun other => by cases other <;> rfl
      | defs => exact .push .defs fun other => by cases other <;> rfl
  | closed closes usable =>
      cases closes with
      | scope nested =>
          obtain ⟨top, outer, popped, depth⟩ := ContextStack.pop?_of_nested nested
          simp only [Change.apply, popped]
          refine .pop .scope fun other => ?_
          cases other with
          | scope => exact depth.symm
          | clipPath | defs => rfl
      | pattern opened => cases recorded
      | clipPath opened =>
          refine .pop .clipPath fun other => ?_
          cases other with
          | clipPath => exact congrArg List.length opened
          | scope | defs => rfl
      | defs opened =>
          refine .pop .defs fun other => ?_
          cases other with
          | defs => exact (Nat.sub_add_cancel opened).symm
          | scope | clipPath => rfl
  | dropped => exact (undropped rfl).elim
  | cleared => cases recorded

namespace Drawing.Above

theorem push (above : drawing.Above opened left)
    (deeper : ∀ other, after.level other = drawing.level other + if other = kind then 1 else 0) :
    after.Above opened (kind.word :: left) := by
  constructor
  · intro other
    rw [deeper, above.level, List.count_cons, Nesting.word_beq]
    simp only [decide_eq_true_eq, Nat.add_assoc]
  · exact List.forall_mem_cons.mpr ⟨⟨kind, rfl⟩, above.words⟩

theorem pop (above : drawing.Above opened left) (member : kind.word ∈ left)
    (deeper : ∀ other, drawing.level other = after.level other + if other = kind then 1 else 0) :
    after.Above opened (left.erase kind.word) := by
  constructor
  · intro other
    have level := (deeper other).symm.trans (above.level other)
    have opens := List.count_pos_iff.mpr member
    rw [List.count_erase, Nesting.word_beq]
    simp only [decide_eq_true_eq]
    split at level
    · subst other
      rw [if_pos rfl]
      omega
    · rw [if_neg (by assumption)]
      omega
  · intro word inside
    exact above.words word (List.mem_of_mem_erase inside)

theorem keep (above : drawing.Above opened left)
    (same : ∀ kind, after.level kind = drawing.level kind) : after.Above opened left :=
  ⟨fun kind => (same kind).trans (above.level kind), above.words⟩

theorem within (above : drawing.Above opened left) (recorded : drawing.pattern.isSome) :
    opened.Within drawing := by
  refine Drawing.within_iff.mpr ⟨fun kind => ?_, recorded⟩
  rw [above.level]
  exact Nat.le_add_right _ _

/-- To close what is not left open is to close what was open before. -/
theorem closes_outside (above : drawing.Above opened left) (absent : kind.word ∉ left)
    (deeper : ∀ other, drawing.level other = after.level other + if other = kind then 1 else 0) :
    ¬ opened.Within after := by
  intro within
  have bound := (Drawing.within_iff.mp within).1 kind
  have level := above.level kind
  have shallower := deeper kind
  rw [List.count_eq_zero_of_not_mem absent] at level
  rw [if_pos rfl] at shallower
  omega

theorem within_iff (above : drawing.Above opened left) (recorded : opened.pattern.isSome) :
    drawing.Within opened ↔ left = [] := by
  rw [Drawing.within_iff]
  constructor
  · rintro ⟨levels, -⟩
    cases left with
    | nil => rfl
    | cons word rest =>
        obtain ⟨kind, rfl⟩ := above.words word List.mem_cons_self
        have level := above.level kind
        have bound := levels kind
        rw [List.count_cons_self] at level
        omega
  · rintro rfl
    refine ⟨fun kind => ?_, recorded⟩
    rw [above.level]
    simp

end Drawing.Above

end Levels

/-- A pattern is open before and behind each of some requests, and its text is not dropped. -/
structure Drawing.KeepsPattern (drawing : Drawing) (requests : List Request) : Prop where
  recorded : ∀ earlier, earlier <+: requests → (drawing.perform earlier).pattern.isSome
  undropped : ∀ request ∈ requests, request.call ≠ .dropProgram

section Runs

variable {tools : Tools} {drawing after opened : Drawing} {call : Call} {outcome : Outcome}
  {request : Request} {requests rest : List Request} {capture : Capture} {left : List String}
  {base : String} {reader : LineReader}

/-- A pattern that is still open is the one that was open before. -/
theorem Effect.pattern_stays (effect : Effect tools drawing call after outcome)
    (recording : drawing.pattern = some capture) (recorded : after.pattern.isSome)
    (undropped : call ≠ .dropProgram) : after.pattern = some capture := by
  refine effect.pattern_kept recording ?_ undropped ?_
  · rintro rfl
    cases effect with
    | failed planned | kept planned | adjusted planned | wrote planned => cases planned
    | cleared => cases recorded
  · rintro rfl rfl
    rcases effect.bracket_done with ⟨text, change, opens, -⟩ | ⟨text, change, closes, behind⟩
    · cases opens
    · cases closes
      rw [behind] at recorded
      cases recorded

namespace Drawing.KeepsPattern

theorem start (keeps : drawing.KeepsPattern requests) : drawing.pattern.isSome :=
  keeps.recorded [] List.nil_prefix

theorem tail (keeps : drawing.KeepsPattern (request :: rest)) :
    (drawing.serve request).1.KeepsPattern rest := by
  constructor
  · intro earlier before
    exact keeps.recorded (request :: earlier) (List.cons_prefix_cons.mpr ⟨rfl, before⟩)
  · exact (List.forall_mem_cons.mp keeps.undropped).2

/-- What the first of the requests does, which leaves the same pattern open. -/
theorem head (keeps : drawing.KeepsPattern (request :: rest)) (reachable : Reachable drawing)
    (recording : drawing.pattern = some capture) :
    Effect request.tools drawing request.call (drawing.serve request).1
        (drawing.serve request).2 ∧
      request.call ≠ .dropProgram ∧ (drawing.serve request).1.pattern = some capture := by
  have effect : Effect request.tools drawing request.call (drawing.serve request).1
      (drawing.serve request).2 := reachable.effect rfl
  have undropped := keeps.undropped request List.mem_cons_self
  exact ⟨effect, undropped, effect.pattern_stays recording keeps.tail.start undropped⟩

end Drawing.KeepsPattern

/-- What requests open and close at the start of a line is what is read of them. -/
theorem Reachable.reads (reachable : Reachable drawing) (recording : drawing.pattern = some capture)
    (keeps : drawing.KeepsPattern requests)
    (single : ∀ request ∈ requests, request.SingleLine)
    (reads : drawing.buffer.ReadAs base reader) (rests : AtRest reader.line) :
    (drawing.perform requests).pattern = some capture ∧
      ∃ further, (drawing.perform requests).buffer.ReadAs base further ∧ AtRest further.line ∧
        further.found = reader.found ++ drawing.bracketLines requests := by
  induction requests generalizing drawing reader with
  | nil => exact ⟨recording, reader, reads, rests, by simp [Drawing.bracketLines]⟩
  | cons request others ih =>
      obtain ⟨single, later⟩ := List.forall_mem_cons.mp single
      obtain ⟨effect, undropped, stays⟩ := keeps.head reachable recording
      obtain ⟨further, readsOne, restsOne, found⟩ :=
        effect.reads recording keeps.tail.start undropped single reads rests
      obtain ⟨open', last, readsAll, restsAll, foundAll⟩ :=
        ih (reachable.of_serve request) stays keeps.tail later readsOne restsOne
      refine ⟨open', last, readsAll, restsAll, ?_⟩
      rw [foundAll, found, List.append_assoc]
      rfl

/-- The brackets that are read are closed again exactly if nothing from outside is closed and
nothing from inside stays open. -/
theorem Reachable.leftOpen?_iff (reachable : Reachable drawing)
    (recording : drawing.pattern = some capture) (outer : opened.pattern.isSome)
    (keeps : drawing.KeepsPattern requests)
    (starts : drawing.BracketsStartLines requests) (above : drawing.Above opened left) :
    leftOpen? left (drawing.bracketLines requests) = some [] ↔
      (∀ earlier, earlier <+: requests → opened.Within (drawing.perform earlier)) ∧
        (drawing.perform requests).Within opened := by
  induction requests generalizing drawing left with
  | nil =>
      have now : opened.Within drawing := above.within keeps.start
      simp only [Drawing.bracketLines, leftOpen?, Option.some_inj, List.prefix_nil, forall_eq,
        Drawing.perform, now, true_and, above.within_iff outer]
  | cons request others ih =>
      obtain ⟨start, starts⟩ := starts
      obtain ⟨effect, undropped, stays⟩ := keeps.head reachable recording
      have rest : ∀ {left}, (drawing.serve request).1.Above opened left → _ :=
        ih (reachable.of_serve request) stays keeps.tail starts
      have now : opened.Within drawing := above.within keeps.start
      have step := effect.levelStep recording keeps.tail.start undropped
      rw [forall_prefix_cons, Drawing.bracketLines, Drawing.bracketLine?_of_start start]
      refine Iff.trans ?_ (and_congr_left' (and_iff_right now)).symm
      generalize (if (drawing.serve request).2 = .done then request.call.bracketLine? else none) =
        line at step ⊢
      cases step with
      | keep same => exact rest (above.keep same)
      | push kind deeper => exact rest (above.push deeper)
      | pop kind deeper =>
          by_cases member : kind.word ∈ left
          · refine Iff.trans (Eq.congr_left ?_) (rest (above.pop member deeper))
            exact if_pos member
          · have refused : leftOpen? left (.pop kind.word ::
                (drawing.serve request).1.bracketLines others) = none := if_neg member
            constructor
            · intro closed
              rw [Option.toList_some, List.singleton_append, refused] at closed
              cases closed
            · rintro ⟨all, -⟩
              exact (above.closes_outside member deeper (all [] List.nil_prefix)).elim

end Runs

section Bodies

variable {drawing opened : Drawing} {tools : Tools} {id : String} {x y width height : Float}

/-- Behind the line that opens a pattern nothing has been read. -/
theorem Effect.begins_reading (effect : Effect tools drawing
      (.instruct (.bracket (.openPattern id x y width height))) opened .done) :
    opened.buffer.ReadAs opened.program {} := by
  rcases effect.bracket_done with ⟨text, change, opens, rfl⟩ | ⟨text, change, closes, -⟩
  · cases opens
    exact ⟨⟨"", String.append_empty.symm, rfl⟩, drawing.buffer.column_line _⟩
  · cases closes

/-- The brackets that are read in the text of a pattern are those that were opened and closed at
the start of a line while it was open.  If no bracket was inside an unfinished path, the text is
self-contained exactly if nothing from outside was closed and nothing was left open. -/
theorem pattern_shows_brackets (tools tools' : Tools) (id : String) (x y width height : Float)
    {inner : List Request} (reachable : Reachable drawing) :
    let opening : Request := ⟨tools, .instruct (.bracket (.openPattern id x y width height))⟩
    let closing : Request := ⟨tools', .instruct (.bracket .closePattern)⟩
    let opened := (drawing.serve opening).1
    let last := opened.perform inner
    (drawing.serve opening).2 = .done → opened.KeepsPattern inner →
      (∀ request ∈ inner, request.SingleLine) → (last.serve closing).2 = .done →
      ∃ body, last.program = opened.program ++ body ∧
        (drawing.settings.geometryKey = .separate →
          (last.serve closing).1.canvas.artifact? (patternKey id) = some body) ∧
        bracketLines body = opened.bracketLines inner ∧
        (opened.BracketsStartLines inner →
          (SelfContained body ↔
            (∀ earlier, earlier <+: inner → opened.Within (opened.perform earlier)) ∧
              last.Within opened)) := by
  intro opening closing opened last opens keeps single closes
  have called := Drawing.call_of_outcome opens
  have begins := (reachable.effect called).begins
  have openedReachable := reachable.of_serve opening
  obtain ⟨recording, reader, reads, rests, found⟩ := openedReachable.reads begins.pattern keeps
    single (reachable.effect called).begins_reading (.inl rfl)
  obtain ⟨body, program, read⟩ := reads.text
  have records : Records last id (.ofRectangle x y width height) opened.program body :=
    ⟨recording, program⟩
  have published := ((openedReachable.of_perform inner).effect
    (Drawing.call_of_outcome closes)).publishes records
  have settings : last.settings = drawing.settings :=
    openedReachable.settings_perform.trans (reachable.settings_serve opening)
  have shown : bracketLines body = opened.bracketLines inner := by
    rw [bracketLines_eq_read, ← read, LineReader.all, rests.settled.bracketLine?, found]
    exact List.append_nil _
  refine ⟨body, program, ?_, shown, ?_⟩
  · intro separate
    have canvas := published.1
    rw [settings, separate] at canvas
    refine (congrArg (Canvas.artifact? · (patternKey id)) canvas).trans ?_
    rw [Canvas.publish_separate, if_neg (patternKey_ne_geometryKey id id), if_pos rfl]
  · intro starts
    have above : opened.Above opened [] := ⟨fun _ => rfl, List.forall_mem_nil _⟩
    rw [SelfContained, shown]
    exact openedReachable.leftOpen?_iff begins.pattern keeps.start keeps starts above

/-- A pattern with a scope and a clip path that cross, and a comment that looks like a bracket. -/
theorem pattern_shows_brackets_that_cross :
    let drawing := Drawing.start {} ⟨64, 64, .empty⟩
    let inner := [Call.instruct (.bracket .openScope), .instruct (.bracket (.openClipPath "c")),
      .instruct (.comment "\tpush defs"), .instruct (.bracket .closeScope),
      .instruct (.bracket .closeClipPath)].map (Request.mk {})
    let opening : Request := ⟨{}, .instruct (.bracket (.openPattern "p" 0 0 8 8))⟩
    let closing : Request := ⟨{}, .instruct (.bracket .closePattern)⟩
    let last := (drawing.serve opening).1.perform inner
    ∃ body, (last.serve closing).1.canvas.artifact? (patternKey "p") = some body ∧
      bracketLines body = [.push "graphic-context", .push "clip-path", .pop "graphic-context",
        .pop "clip-path"] ∧ SelfContained body := by
  intro drawing inner opening closing last
  let opened := (drawing.serve opening).1
  have keeps : opened.KeepsPattern inner := by
    constructor
    · have recorded : ∀ earlier ∈ inner.inits, (opened.perform earlier).pattern.isSome := by
        decide +kernel
      exact fun earlier before => recorded earlier ((List.mem_inits _ _).mpr before)
    · simp [inner]
  have single : ∀ request ∈ inner, request.SingleLine := by
    have texts : ∀ request ∈ inner, ∀ text ∈ request.call.texts, SingleLine text := by
      decide +kernel
    intro request member
    refine ⟨texts request member, ?_⟩
    intro placement picture encoded composite
    simp only [inner, List.mem_map] at member
    obtain ⟨call, inside, rfl⟩ := member
    subst composite
    simp at inside
  have starts : opened.BracketsStartLines inner := by decide +kernel
  have within : ∀ earlier ∈ inner.inits, opened.Within (opened.perform earlier) := by
    decide +kernel
  have reachable : Reachable drawing := Reachable.start {} ⟨64, 64, .empty⟩
  obtain ⟨body, -, published, shown, contained⟩ := pattern_shows_brackets {} {} "p" 0 0 8 8
    reachable (by decide +kernel) keeps single (by decide +kernel)
  refine ⟨body, ?_, ?_, ?_⟩
  · have separate : drawing.settings.geometryKey = .separate := rfl
    simpa only [opening, closing, last] using published separate
  · rw [shown]
    decide +kernel
  · refine (contained starts).mpr ⟨?_, by decide +kernel⟩
    exact fun earlier before => within earlier ((List.mem_inits _ _).mpr before)

/-- A pattern inside a scope that it closes. -/
theorem pattern_closes_scope_around :
    let calls := [Call.instruct (.bracket .openScope),
      .instruct (.bracket (.openPattern "p" 0 0 8 8)), .instruct (.bracket .closeScope),
      .instruct (.bracket .closePattern)]
    let drawing := Drawing.start {} ⟨64, 64, .empty⟩
    (∀ event ∈ drawing.events {} calls, event.outcome = .done) ∧
      (drawing.calls {} calls).canvas.artifact? (patternKey "p") =
        some " pop graphic-context\n" ∧
      ¬ SelfContained " pop graphic-context\n" := by
  intro calls drawing
  exact ⟨by decide +kernel, by decide +kernel, by decide +kernel⟩

end Bodies

end Quill
