import Quill.Proofs.Capture
import Quill.Proofs.Lockstep
import Quill.Proofs.Pieces
import Quill.Proofs.Spacing

/-!
# The widths of lines

Two drawings whose lines wrap at different columns, and whose pictures are cut into lines of
different widths, get the same requests.  Their programs part at the first line break, and the
byte offsets at which open patterns begin part with them, but never anything that a later call
looks at.
-/

namespace Quill

/-- Two drawings that are the same but for the spacing of their programs and artifacts, for the
places where open patterns begin, and for their settings. -/
structure Drawing.SameBarSpacing (first second : Drawing) : Prop where
  contexts : first.contexts = second.contexts
  path : first.path = second.path
  pattern : (first.pattern.map fun capture => (capture.id, capture.bounds)) =
    second.pattern.map fun capture => (capture.id, capture.bounds)
  openClips : first.openClips = second.openClips
  openDefs : first.openDefs = second.openDefs
  clipPaths : first.clipPaths = second.clipPaths
  filtering : first.filtering = second.filtering
  poisoned : first.poisoned = second.poisoned
  lastError : first.lastError = second.lastError
  indent : first.buffer.indent = second.buffer.indent
  program : unspaced first.program = unspaced second.program
  width : first.canvas.width = second.canvas.width
  height : first.canvas.height = second.canvas.height
  artifacts : ∀ key,
    (first.canvas.artifact? key).map unspaced = (second.canvas.artifact? key).map unspaced

/-- What an open pattern of two drawings has recorded is the same but for spacing. -/
def SameRecords (first second : Drawing) : Prop :=
  ∀ capture, first.pattern = some capture → ∃ base body base' body',
    Records first capture.id capture.bounds base body ∧
      Records second capture.id capture.bounds base' body' ∧ unspaced body = unspaced body'

/-- Two drawings without a byte limit that are the same but for spacing, also in their records. -/
structure Aligned (first second : Drawing) : Prop extends first.SameBarSpacing second where
  unlimited : first.layout.limit = none
  unlimited' : second.layout.limit = none
  geometry : first.settings.geometryKey = second.settings.geometryKey
  records : SameRecords first second

section Plans

/-- The same drawing with another program, canvas and pattern, and other settings. -/
def Drawing.respaced (drawing : Drawing) (canvas : Canvas) (settings : Settings)
    (buffer : Buffer) (pattern : Option Capture) : Drawing :=
  { drawing with canvas := canvas, settings := settings, buffer := buffer, pattern := pattern }

/-- Changes that differ at most in the spacing of a finished pattern. -/
inductive Change.Respaced : Change → Change → Prop
  | same (change : Change) : Respaced change change
  | closePattern {id : String} {bounds : PatternBounds} {body body' : String} (offset offset' : Nat)
      (spaced : unspaced body = unspaced body') :
      Respaced (.closePattern ⟨id, offset, bounds⟩ body) (.closePattern ⟨id, offset', bounds⟩ body')

/-- Plans that differ at most in spacing. -/
inductive Plan.Respaced : Plan → Plan → Prop
  | same (plan : Plan) : Respaced plan plan
  | write {pieces pieces' : List Piece} (change : Change)
      (spaced : unspaced (Piece.joined pieces) = unspaced (Piece.joined pieces')) :
      Respaced (.write pieces change) (.write pieces' change)
  | close {change change' : Change} (text : String) (spaced : change.Respaced change') :
      Respaced (.close text change) (.close text change')

variable {tools : Tools} {first second drawing : Drawing} {canvas : Canvas} {settings : Settings}
  {buffer : Buffer} {pattern : Option Capture} {call : Call}

theorem Drawing.SameBarSpacing.eq_respaced (same : first.SameBarSpacing second) :
    second = first.respaced second.canvas second.settings second.buffer second.pattern := by
  obtain ⟨contexts, path, -, openClips, openDefs, clipPaths, filtering, poisoned, lastError, -⟩ :=
    same
  rcases first with ⟨_, _, _, _, _, _, _, _, _, _, _, _⟩
  rcases second with ⟨_, _, _, _, _, _, _, _, _, _, _, _⟩
  simp only at *
  subst contexts path openClips openDefs clipPaths filtering poisoned lastError
  rfl

theorem Drawing.SameBarSpacing.patternReference (same : first.SameBarSpacing second)
    (url : String) : first.patternReference url = second.patternReference url := by
  have published : ∀ key,
      (first.canvas.artifact? key).isSome = (second.canvas.artifact? key).isSome := by
    intro key
    have found := congrArg Option.isSome (same.artifacts key)
    rwa [Option.isSome_map, Option.isSome_map] at found
  simp only [Drawing.patternReference, published]

theorem Drawing.SameBarSpacing.setting (same : first.SameBarSpacing second) (setting : Setting) :
    setting.plan tools first = setting.plan tools second := by
  have respaced := same.eq_respaced
  cases setting with
  | paintPattern side url =>
      rw [Setting.plan, Setting.plan, same.patternReference url]
      rw [respaced]
      rfl
  | _ =>
      rw [respaced]
      rfl

theorem Aligned.bracket (aligned : Aligned first second) (bracket : Bracket) :
    (bracket.plan first).Respaced (bracket.plan second) := by
  have respaced := aligned.eq_respaced
  have pattern := aligned.pattern
  cases bracket with
  | openPattern id x y width height =>
      have opened : (Bracket.openPattern id x y width height).plan first =
          (Bracket.openPattern id x y width height).plan second := by
        rw [Bracket.plan, Bracket.plan]
        congr 1
        funext id
        cases held : first.pattern with
        | none =>
            rw [held, Option.map_none] at pattern
            rw [Option.map_eq_none_iff.mp pattern.symm]
        | some capture =>
            obtain ⟨base, body, base', body', -, other, -⟩ := aligned.records capture held
            rw [other.pattern]
      rw [opened]
      exact .same _
  | closePattern =>
      rw [Bracket.plan, Bracket.plan, ← aligned.poisoned]
      split
      · exact .same _
      cases held : first.pattern with
      | none =>
          rw [held, Option.map_none] at pattern
          rw [Option.map_eq_none_iff.mp pattern.symm]
          exact .same _
      | some capture =>
          obtain ⟨base, body, base', body', one, other, spaced⟩ := aligned.records capture held
          have here : capture = ⟨capture.id, base.utf8ByteSize, capture.bounds⟩ :=
            Option.some.inj (held.symm.trans one.pattern)
          rw [here, other.pattern]
          refine .close _ (.closePattern _ _ ?_)
          rw [Buffer.since_append one.program, Buffer.since_append other.program]
          exact spaced
  | _ =>
      rw [respaced]
      exact .same _

/-- Aligned drawings plan the same for every call, but for spacing. -/
theorem Aligned.plan? (aligned : Aligned first second) {plan : Plan}
    (planned : call.plan? tools first = some plan) :
    ∃ plan', call.plan? tools second = some plan' ∧ plan.Respaced plan' := by
  have respaced := aligned.eq_respaced
  cases call with
  | instruct instruction =>
      cases planned
      refine ⟨_, rfl, ?_⟩
      cases instruction with
      | setting change =>
          have same : change.plan tools first = change.plan tools second := aligned.setting change
          rw [Instruction.plan, Instruction.plan, same]
          exact .same _
      | bracket edge => exact aligned.bracket edge
      | _ =>
          rw [respaced]
          exact .same _
  | accent kind color =>
      cases planned
      refine ⟨_, rfl, ?_⟩
      rw [respaced]
      exact .same _
  | composite placement picture =>
      simp only [Call.plan?, ← aligned.poisoned] at planned ⊢
      split at planned
      · cases planned
      rename_i extended
      rw [if_neg extended]
      split at planned
      · rename_i poisoned
        cases planned
        exact ⟨_, if_pos poisoned, .same _⟩
      rename_i usable
      rw [if_neg usable]
      cases encoded : tools.encode picture with
      | error failure =>
          simp only [encoded] at planned
          cases planned
          exact ⟨_, rfl, .same _⟩
      | ok encodedPicture =>
          simp only [encoded] at planned
          cases planned
          refine ⟨_, rfl, .write _ ?_⟩
          simp only [Piece.joined, unspaced_append]
          rw [Placement.unspaced_text]
  | render _ | dropProgram | clear | clearError => cases planned

end Plans

section Steps

variable {tools : Tools} {first second : Drawing} {buffer buffer' : Buffer}
  {change change' : Change} {plan plan' : Plan} {added added' : String}

theorem SameRecords.append (records : SameRecords first second) {first' second' : Drawing}
    (pattern : first'.pattern = first.pattern) (pattern' : second'.pattern = second.pattern)
    (text : first'.program = first.program ++ added)
    (text' : second'.program = second.program ++ added')
    (spaced : unspaced added = unspaced added') : SameRecords first' second' := by
  intro capture held
  obtain ⟨base, body, base', body', one, other, same⟩ := records capture (pattern ▸ held)
  refine ⟨base, body ++ added, base', body' ++ added', one.append pattern text,
    other.append pattern' text', ?_⟩
  rw [unspaced_append, unspaced_append, same, spaced]

theorem SameRecords.congr (records : SameRecords first second) {first' second' : Drawing}
    (pattern : first'.pattern = first.pattern) (pattern' : second'.pattern = second.pattern)
    (text : first'.program = first.program) (text' : second'.program = second.program) :
    SameRecords first' second' :=
  records.append pattern pattern' (text.trans String.append_empty.symm)
    (text'.trans String.append_empty.symm) rfl

/-- Writing the same text but for its spacing keeps drawings aligned. -/
theorem Aligned.append (aligned : Aligned first second)
    (text : buffer.text = first.program ++ added) (text' : buffer'.text = second.program ++ added')
    (spaced : unspaced added = unspaced added') (indent : buffer.indent = buffer'.indent) :
    Aligned { first with buffer := buffer } { second with buffer := buffer' } := by
  refine { aligned with
    indent := indent
    program := ?_
    records := aligned.records.append rfl rfl text text' spaced }
  rw [Drawing.program, Drawing.program, text, text', unspaced_append, unspaced_append,
    aligned.program, spaced]

theorem Aligned.fail (aligned : Aligned first second) (failure : Failure) :
    Aligned (first.record failure) (second.record failure) := by
  refine { aligned with
    poisoned := ?_
    lastError := rfl
    records := aligned.records.congr rfl rfl rfl rfl }
  rw [Drawing.record, Drawing.record, aligned.poisoned]

theorem Aligned.refilter (aligned : Aligned first second) :
    Aligned first.refilter second.refilter := by
  refine { aligned with
    filtering := ?_
    records := aligned.records.congr rfl rfl rfl rfl }
  have vacant := congrArg Option.isNone aligned.pattern
  rw [Option.isNone_map, Option.isNone_map] at vacant
  rw [Drawing.refilter, Drawing.refilter, vacant, aligned.openClips]

theorem Canvas.width_publish (canvas : Canvas) (geometry : GeometryKey) (capture : Capture)
    (body : String) : (canvas.publish geometry capture body).width = canvas.width := by
  cases geometry <;> rfl

theorem Canvas.height_publish (canvas : Canvas) (geometry : GeometryKey) (capture : Capture)
    (body : String) : (canvas.publish geometry capture body).height = canvas.height := by
  cases geometry <;> rfl

theorem Canvas.publish_unspaced {canvas canvas' : Canvas} (geometry : GeometryKey) {id : String}
    {bounds : PatternBounds} {body body' : String} (offset offset' : Nat)
    (spaced : unspaced body = unspaced body')
    (same : ∀ key, (canvas.artifact? key).map unspaced = (canvas'.artifact? key).map unspaced)
    (key : String) :
    ((canvas.publish geometry ⟨id, offset, bounds⟩ body).artifact? key).map unspaced =
      ((canvas'.publish geometry ⟨id, offset', bounds⟩ body').artifact? key).map unspaced := by
  cases geometry with
  | separate =>
      rw [publish_separate, publish_separate]
      split
      · rfl
      split
      · simp only [Option.map_some, spaced]
      · exact same key
  | shared =>
      rw [publish_shared, publish_shared]
      split
      · rfl
      · exact same key

theorem Aligned.publish (aligned : Aligned first second) {id : String} {bounds : PatternBounds}
    {body body' : String} (offset offset' : Nat) (spaced : unspaced body = unspaced body') :
    Aligned ((Change.closePattern ⟨id, offset, bounds⟩ body).apply first)
      ((Change.closePattern ⟨id, offset', bounds⟩ body').apply second) := by
  have published : Aligned
      { first with
        canvas := first.canvas.publish first.settings.geometryKey ⟨id, offset, bounds⟩ body
        pattern := none }
      { second with
        canvas := second.canvas.publish second.settings.geometryKey ⟨id, offset', bounds⟩ body'
        pattern := none } := by
    refine { aligned with
      pattern := rfl, width := ?_, height := ?_, artifacts := ?_, records := nofun }
    · rw [Canvas.width_publish, Canvas.width_publish, aligned.width]
    · rw [Canvas.height_publish, Canvas.height_publish, aligned.height]
    · rw [aligned.geometry]
      exact Canvas.publish_unspaced _ offset offset' spaced aligned.artifacts
  exact published.refilter

theorem Aligned.apply (aligned : Aligned first second) (respaced : change.Respaced change') :
    Aligned (change.apply first) (change'.apply second) := by
  cases respaced with
  | closePattern offset offset' spaced => exact aligned.publish offset offset' spaced
  | same =>
      cases change with
      | nothing => exact aligned
      | context update =>
          exact { aligned with
            contexts := congrArg (·.modify update) aligned.contexts
            records := aligned.records.congr rfl rfl rfl rfl }
      | path state =>
          exact { aligned with path := rfl, records := aligned.records.congr rfl rfl rfl rfl }
      | openScope =>
          exact { aligned with
            contexts := congrArg ContextStack.push aligned.contexts
            indent := congrArg (· + 1) aligned.indent
            records := aligned.records.congr rfl rfl rfl rfl }
      | closeScope =>
          have popped : first.contexts.pop? = second.contexts.pop? :=
            congrArg ContextStack.pop? aligned.contexts
          rw [Change.apply, Change.apply, popped]
          split
          · exact { aligned with
              contexts := rfl
              records := aligned.records.congr rfl rfl rfl rfl }
          · exact aligned
      | openPattern id bounds =>
          refine { aligned with
            pattern := rfl
            filtering := rfl
            indent := congrArg (· + 1) aligned.indent
            records := ?_ }
          intro capture held
          cases held
          exact ⟨first.program, "", second.program, "", ⟨rfl, String.append_empty.symm⟩,
            ⟨rfl, String.append_empty.symm⟩, rfl⟩
      | closePattern capture body => exact aligned.publish _ _ rfl
      | openClipPath id =>
          exact { aligned with
            openClips := congrArg (id :: ·) aligned.openClips
            filtering := rfl
            indent := congrArg (· + 1) aligned.indent
            records := aligned.records.congr rfl rfl rfl rfl }
      | closeClipPath id outer =>
          have closed : Aligned
              { first with openClips := outer, clipPaths := first.clipPaths.insert id () }
              { second with openClips := outer, clipPaths := second.clipPaths.insert id () } :=
            { aligned with
              openClips := rfl
              clipPaths := congrArg (·.insert id ()) aligned.clipPaths
              records := aligned.records.congr rfl rfl rfl rfl }
          exact closed.refilter
      | openDefs =>
          exact { aligned with
            openDefs := congrArg (· + 1) aligned.openDefs
            indent := congrArg (· + 1) aligned.indent
            records := aligned.records.congr rfl rfl rfl rfl }
      | closeDefs =>
          exact { aligned with
            openDefs := congrArg (· - 1) aligned.openDefs
            records := aligned.records.congr rfl rfl rfl rfl }

theorem Aligned.writes (aligned : Aligned first second) (modest : plan.Modest)
    (modest' : plan'.Modest) (writes : plan.Writes first buffer change)
    (writes' : plan'.Writes second buffer' change') (respaced : change.Respaced change')
    (written : Aligned { first with buffer := buffer } { second with buffer := buffer' }) :
    (plan.run first).2 = (plan'.run second).2 ∧
      Aligned (plan.run first).1 (plan'.run second).1 :=
  writes.run_related writes' modest modest' aligned.unlimited aligned.unlimited' aligned.poisoned
    (aligned.fail .poisoned) fun _ => written.apply respaced

theorem Aligned.write (aligned : Aligned first second) {pieces pieces' : List Piece}
    (short : ∀ piece ∈ pieces, piece.Short) (short' : ∀ piece ∈ pieces', piece.Short)
    (spaced : unspaced (Piece.joined pieces) = unspaced (Piece.joined pieces')) :
    (Plan.run first (.write pieces change)).2 = (Plan.run second (.write pieces' change)).2 ∧
      Aligned (Plan.run first (.write pieces change)).1
        (Plan.run second (.write pieces' change)).1 := by
  obtain ⟨added, grows, same⟩ := Buffer.wroteEach_unspaced first.layout first.buffer pieces
  obtain ⟨added', grows', same'⟩ := Buffer.wroteEach_unspaced second.layout second.buffer pieces'
  have indent := grows.indent.trans (aligned.indent.trans grows'.indent.symm)
  exact aligned.writes short short' .write .write (.same change)
    (aligned.append grows.text grows'.text (same.trans (spaced.trans same'.symm)) indent)

theorem Aligned.close (aligned : Aligned first second) {text : String}
    (respaced : change.Respaced change') :
    (Plan.run first (.close text change)).2 = (Plan.run second (.close text change')).2 ∧
      Aligned (Plan.run first (.close text change)).1
        (Plan.run second (.close text change')).1 := by
  have grows := first.buffer.indentOut.extended_grows (text ++ "\n")
  have grows' := second.buffer.indentOut.extended_grows (text ++ "\n")
  have indent : first.buffer.indentOut.indent = second.buffer.indentOut.indent :=
    congrArg (· - 1) aligned.indent
  exact aligned.writes trivial trivial .close .close respaced
    (aligned.append grows.text grows'.text (by simp)
      (grows.indent.trans (indent.trans grows'.indent.symm)))

theorem Aligned.run (aligned : Aligned first second) {call : Call}
    (planned : call.plan? tools first = some plan) (planned' : call.plan? tools second = some plan')
    (respaced : plan.Respaced plan') :
    (plan.run first).2 = (plan'.run second).2 ∧
      Aligned (plan.run first).1 (plan'.run second).1 := by
  cases respaced with
  | write change spaced =>
      exact aligned.write (Call.plan?_short planned) (Call.plan?_short planned') spaced
  | close text spaced => exact aligned.close spaced
  | same =>
      cases plan with
      | refuse failure => exact ⟨rfl, aligned.fail failure⟩
      | keep => exact ⟨rfl, aligned⟩
      | adjust update => exact ⟨rfl, aligned.apply (.same (.context update))⟩
      | write pieces change =>
          exact aligned.write (Call.plan?_short planned) (Call.plan?_short planned') rfl
      | close text change => exact aligned.close (.same change)

theorem Aligned.dropProgram (aligned : Aligned first second) :
    Aligned first.dropProgram second.dropProgram := by
  refine { aligned with path := rfl, pattern := ?_, program := rfl, records := ?_ }
  · simpa [Drawing.dropProgram, Function.comp_def] using aligned.pattern
  · intro capture held
    obtain ⟨before, opened, rfl⟩ := Option.map_eq_some_iff.mp held
    obtain ⟨base, body, base', body', one, other, -⟩ := aligned.records before opened
    exact ⟨"", "", "", "", one.dropProgram, other.dropProgram, rfl⟩

theorem Aligned.clear (aligned : Aligned first second) : Aligned first.clear second.clear :=
  { aligned with
    contexts := rfl
    path := rfl
    pattern := rfl
    openClips := rfl
    openDefs := rfl
    clipPaths := rfl
    filtering := rfl
    poisoned := rfl
    lastError := rfl
    indent := rfl
    program := rfl
    records := nofun }

/-- Aligned drawings serve a request in the same way and stay aligned. -/
theorem Aligned.serve (aligned : Aligned first second) {request : Request}
    (undrawn : ∀ rasterizer, request.call ≠ .render rasterizer) :
    (first.serve request).2 = (second.serve request).2 ∧
      Aligned (first.serve request).1 (second.serve request).1 := by
  obtain ⟨tools, call⟩ := request
  cases planned : call.plan? tools first with
  | some plan =>
      obtain ⟨plan', planned', respaced⟩ := aligned.plan? planned
      rw [Drawing.serve, Drawing.serve, Drawing.call_eq_run planned, Drawing.call_eq_run planned']
      exact aligned.run planned planned' respaced
  | none =>
      cases call with
      | instruct _ | accent _ _ => cases planned
      | composite placement picture =>
          have flat := (Drawing.composite_of_unplanned planned).1
          simp only [Drawing.serve, Drawing.call, Drawing.composite, flat]
          exact ⟨rfl, aligned⟩
      | render rasterizer => exact (undrawn rasterizer rfl).elim
      | dropProgram => exact ⟨rfl, aligned.dropProgram⟩
      | clear => exact ⟨rfl, aligned.clear⟩
      | clearError =>
          exact ⟨rfl, { aligned with
            lastError := rfl
            records := aligned.records.congr rfl rfl rfl rfl }⟩

end Steps

/-- Two new drawings that differ only in where lines wrap and in how wide the lines of pictures
are end the same requests in the same way, and after any number of them they are the same but for
the spacing of their programs and artifacts. -/
theorem line_widths_are_cosmetic (canvas : Canvas) (geometry : GeometryKey)
    (wrap wrap' width width' : Nat) {requests : List Request}
    (undrawn : ∀ request ∈ requests, ∀ rasterizer, request.call ≠ .render rasterizer) :
    let first := Drawing.start ⟨wrap, width, geometry, none⟩ canvas
    let second := Drawing.start ⟨wrap', width', geometry, none⟩ canvas
    first.outcomes requests = second.outcomes requests ∧
      (first.perform requests).SameBarSpacing (second.perform requests) := by
  intro first second
  have aligned : Aligned first second :=
    ⟨⟨rfl, rfl, rfl, rfl, rfl, rfl, rfl, rfl, rfl, rfl, rfl, rfl, rfl, fun _ => rfl⟩, rfl, rfl, rfl,
      nofun⟩
  obtain ⟨outcomes, kept⟩ := Drawing.lockstep
    (fun request member _ _ aligned => Aligned.serve aligned (undrawn request member)) aligned
  exact ⟨outcomes, kept.toSameBarSpacing⟩

/-- A pattern whose polygon and whose picture have line breaks in one drawing and none in the
other. -/
theorem line_widths_are_cosmetic_in_pattern :
    let tools : Tools := { encode := fun _ => .ok ⟨"image/png", [1, 2, 3, 4, 5]⟩ }
    let requests : List Request :=
      [⟨tools, .instruct (.bracket (.openPattern "p" 0 0 8 8))⟩,
        ⟨tools, .instruct (.shape (.polygon [(1, 1), (2, 2)]))⟩,
        ⟨tools, .composite ⟨.over, 0, 0, 8, 8⟩ ⟨.gray, false, 1, 1, [0]⟩⟩,
        ⟨tools, .instruct (.bracket .closePattern)⟩]
    let narrow := Drawing.start ⟨12, 4, .separate, none⟩ ⟨64, 64, .empty⟩
    let wide := Drawing.start ⟨78, 76, .separate, none⟩ ⟨64, 64, .empty⟩
    narrow.outcomes requests = wide.outcomes requests ∧
      (narrow.perform requests).canvas.artifact? (patternKey "p") ≠
        (wide.perform requests).canvas.artifact? (patternKey "p") ∧
      ((narrow.perform requests).canvas.artifact? (patternKey "p")).map unspaced =
        ((wide.perform requests).canvas.artifact? (patternKey "p")).map unspaced := by
  intro tools requests narrow wide
  have undrawn : ∀ request ∈ requests, ∀ rasterizer, request.call ≠ .render rasterizer := by
    intro request member
    simp only [requests, List.mem_cons, List.not_mem_nil, or_false] at member
    rcases member with rfl | rfl | rfl | rfl <;> nofun
  obtain ⟨outcomes, same⟩ :=
    line_widths_are_cosmetic ⟨64, 64, .empty⟩ .separate 12 78 4 76 undrawn
  exact ⟨outcomes, by decide +kernel, same.artifacts _⟩

end Quill
