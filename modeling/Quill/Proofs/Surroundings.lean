import Mathlib.Data.List.Infix
import Quill.Proofs.Ambient
import Quill.Proofs.Lockstep

/-!
# Patterns and their surroundings

The same pattern is drawn in two drawings whose contexts and stacks differ.  What it writes and
publishes is the same, as long as it does not close what was open around it.
-/

namespace Quill

/-- Everything that was open in one drawing is still open in another, and so is a pattern. -/
structure Drawing.Within (opened drawing : Drawing) : Prop where
  scopes : opened.contexts.depth ≤ drawing.contexts.depth
  clips : opened.openClips.length ≤ drawing.openClips.length
  defs : opened.openDefs ≤ drawing.openDefs
  pattern : drawing.pattern.isSome

instance (opened drawing : Drawing) : Decidable (opened.Within drawing) :=
  decidable_of_iff (opened.contexts.depth ≤ drawing.contexts.depth ∧
      opened.openClips.length ≤ drawing.openClips.length ∧
      opened.openDefs ≤ drawing.openDefs ∧ drawing.pattern.isSome = true)
    ⟨fun ⟨scopes, clips, defs, pattern⟩ => ⟨scopes, clips, defs, pattern⟩,
      fun within => ⟨within.scopes, within.clips, within.defs, within.pattern⟩⟩

/-- A call that neither draws the program nor starts it over. -/
def Call.GoesOn : Call → Prop
  | .render _ | .dropProgram | .clear => False
  | .instruct _ | .accent _ _ | .composite _ _ | .clearError => True

/-- Behind two programs the open patterns of two drawings have recorded the same text. -/
def SameBody (opened opened' first second : Drawing) : Prop :=
  ∃ id bounds body, Records first id bounds opened.program body ∧
    Records second id bounds opened'.program body

/-- Two drawings behind the opening of the same pattern.  Since then they wrote the same text and
opened the same brackets. -/
structure Inside (opened opened' first second : Drawing) : Prop extends first.Alike second where
  unlimited : first.layout.limit = none
  scopes : ∃ alpha own,
    first.contexts.alphas = alpha :: (own ++ opened.contexts.alphas.tail) ∧
      second.contexts.alphas = alpha :: (own ++ opened'.contexts.alphas.tail)
  clips : ∃ own, first.openClips = own ++ opened.openClips ∧
    second.openClips = own ++ opened'.openClips
  defs : ∃ own, first.openDefs = own + opened.openDefs ∧ second.openDefs = own + opened'.openDefs
  body : SameBody opened opened' first second

variable {opened opened' first second first' second' drawing : Drawing}
  {buffer buffer' : Buffer} {added : String} {change change' : Change}

theorem SameBody.append (same : SameBody opened opened' first second)
    (pattern : first'.pattern = first.pattern) (pattern' : second'.pattern = second.pattern)
    (text : first'.program = first.program ++ added)
    (text' : second'.program = second.program ++ added) :
    SameBody opened opened' first' second' := by
  obtain ⟨id, bounds, body, records, records'⟩ := same
  exact ⟨id, bounds, body ++ added, records.append pattern text, records'.append pattern' text'⟩

theorem SameBody.congr (same : SameBody opened opened' first second)
    (pattern : first'.pattern = first.pattern) (pattern' : second'.pattern = second.pattern)
    (text : first'.program = first.program) (text' : second'.program = second.program) :
    SameBody opened opened' first' second' :=
  same.append pattern pattern' (text.trans String.append_empty.symm)
    (text'.trans String.append_empty.symm)

section Plans

variable {id : String} {failure : Failure}

theorem Bracket.openPattern_plan_of_error {x y width height : Float}
    (required : Drawing.require "pattern id" id = .error failure) :
    (Bracket.openPattern id x y width height).plan drawing = .refuse failure := by
  rw [plan, required]
  rfl

theorem Bracket.closeScope_plan (usable : drawing.poisoned = false)
    (nested : 1 < drawing.contexts.depth) :
    Bracket.closeScope.plan drawing = .close "pop graphic-context" .closeScope := by
  rw [plan, usable, if_neg Bool.false_ne_true, if_neg (Nat.not_le.mpr nested)]

theorem Bracket.closeClipPath_plan {outer : List String} (usable : drawing.poisoned = false)
    (clips : drawing.openClips = id :: outer) :
    Bracket.closeClipPath.plan drawing = .close "pop clip-path" (.closeClipPath id outer) := by
  rw [plan, usable, if_neg Bool.false_ne_true, clips]

theorem Bracket.closeDefs_plan (usable : drawing.poisoned = false)
    (defs : 0 < drawing.openDefs) :
    Bracket.closeDefs.plan drawing = .close "pop defs" .closeDefs := by
  rw [plan, usable, if_neg Bool.false_ne_true, if_neg (Nat.pos_iff_ne_zero.mp defs)]

theorem Records.closePattern_plan {bounds : PatternBounds} {base body : String}
    (records : Records drawing id bounds base body) (usable : drawing.poisoned = false) :
    Bracket.closePattern.plan drawing =
      .close "pop pattern" (.closePattern ⟨id, base.utf8ByteSize, bounds⟩ body) := by
  rw [Bracket.plan, usable, if_neg Bool.false_ne_true, records.pattern]
  simp only [Buffer.since_append records.program]

end Plans

section Levels

/-- A drawing that may not close anything that was open does not, at the level it was opened. -/
theorem Drawing.Within.closeScope (unlimited : drawing.layout.limit = none)
    (usable : drawing.poisoned = false) (level : drawing.contexts.depth ≤ opened.contexts.depth)
    (within : opened.Within ((Bracket.closeScope.plan drawing).run drawing).1) :
    Bracket.closeScope.plan drawing = .refuse .unbalancedContexts := by
  rw [Bracket.plan, usable, if_neg Bool.false_ne_true] at within ⊢
  by_cases flat : drawing.contexts.depth ≤ 1
  · exact if_pos flat
  · rw [if_neg flat, Plan.run_close unlimited usable] at within
    obtain ⟨top, outer, popped, depth⟩ :=
      ContextStack.pop?_of_nested (show 1 < drawing.contexts.depth by omega)
    have scopes := within.scopes
    simp only [Change.apply, popped] at scopes
    omega

theorem Drawing.Within.closeClipPath (unlimited : drawing.layout.limit = none)
    (usable : drawing.poisoned = false)
    (level : drawing.openClips.length ≤ opened.openClips.length)
    (within : opened.Within ((Bracket.closeClipPath.plan drawing).run drawing).1) :
    Bracket.closeClipPath.plan drawing = .refuse (.unbalancedDefinition .clipPath) := by
  rw [Bracket.plan, usable, if_neg Bool.false_ne_true] at within ⊢
  cases open' : drawing.openClips with
  | nil => rfl
  | cons id outer =>
      rw [open'] at level within
      simp only [Plan.run_close unlimited usable] at within
      have clips : opened.openClips.length ≤ outer.length := within.clips
      rw [List.length_cons] at level
      omega

theorem Drawing.Within.closeDefs (unlimited : drawing.layout.limit = none)
    (usable : drawing.poisoned = false) (level : drawing.openDefs ≤ opened.openDefs)
    (within : opened.Within ((Bracket.closeDefs.plan drawing).run drawing).1) :
    Bracket.closeDefs.plan drawing = .refuse (.unbalancedDefinition .defs) := by
  rw [Bracket.plan, usable, if_neg Bool.false_ne_true] at within ⊢
  by_cases none : drawing.openDefs = 0
  · exact if_pos none
  · rw [if_neg none, Plan.run_close unlimited usable] at within
    have defs : opened.openDefs ≤ drawing.openDefs - 1 := within.defs
    omega

end Levels

namespace Inside

theorem unlimited' (inside : Inside opened opened' first second) :
    second.layout.limit = none := by
  have limit := inside.unlimited
  rwa [Drawing.layout, inside.settings] at limit

section Changes

theorem append (inside : Inside opened opened' first second)
    (text : buffer.text = first.program ++ added) (text' : buffer'.text = second.program ++ added)
    (line : buffer.SameLine buffer') :
    Inside opened opened' { first with buffer := buffer } { second with buffer := buffer' } :=
  { inside with line := line, body := inside.body.append rfl rfl text text' }

theorem fail (inside : Inside opened opened' first second) (failure : Failure) :
    Inside opened opened' (first.record failure) (second.record failure) := by
  refine { inside with poisoned := ?_, body := inside.body.congr rfl rfl rfl rfl }
  rw [Drawing.record, Drawing.record, inside.poisoned]

theorem rescope (inside : Inside opened opened' first second) {contexts contexts' : ContextStack}
    {alpha : UInt8} {own : List UInt8}
    (alphas : contexts.alphas = alpha :: (own ++ opened.contexts.alphas.tail))
    (alphas' : contexts'.alphas = alpha :: (own ++ opened'.contexts.alphas.tail)) :
    Inside opened opened' { first with contexts := contexts }
      { second with contexts := contexts' } := by
  have current : contexts.current.alpha = alpha := by
    rw [contexts.alphas_eq_cons] at alphas
    exact (List.cons.inj alphas).1
  have current' : contexts'.current.alpha = alpha := by
    rw [contexts'.alphas_eq_cons] at alphas'
    exact (List.cons.inj alphas').1
  exact { inside with
    alpha := current.trans current'.symm
    scopes := ⟨alpha, own, alphas, alphas'⟩
    body := inside.body.congr rfl rfl rfl rfl }

theorem modify (inside : Inside opened opened' first second) {update update' : Context → Context}
    (same : SameAlpha update update') :
    Inside opened opened' { first with contexts := first.contexts.modify update }
      { second with contexts := second.contexts.modify update' } := by
  obtain ⟨alpha, own, alphas, alphas'⟩ := inside.scopes
  have updated : (update first.context).alpha = (update' second.context).alpha :=
    same _ _ inside.alpha
  have modified : (first.contexts.modify update).alphas =
      (update first.context).alpha :: (own ++ opened.contexts.alphas.tail) := by
    rw [ContextStack.alphas_modify, alphas]
    rfl
  have modified' : (second.contexts.modify update').alphas =
      (update first.context).alpha :: (own ++ opened'.contexts.alphas.tail) := by
    rw [ContextStack.alphas_modify, alphas', updated]
    rfl
  exact inside.rescope modified modified'

theorem apply (inside : Inside opened opened' first second) (akin : change.Akin change') :
    Inside opened opened' (change.apply first) (change'.apply second) := by
  cases akin with
  | nothing => exact inside
  | context same => exact inside.modify same
  | path state => exact { inside with path := rfl, body := inside.body.congr rfl rfl rfl rfl }

theorem indentIn (inside : Inside opened opened' first second) :
    Inside opened opened' { first with buffer := first.buffer.indentIn }
      { second with buffer := second.buffer.indentIn } :=
  { inside with
    line := ⟨inside.line.column, congrArg (· + 1) inside.line.indent⟩
    body := inside.body.congr rfl rfl rfl rfl }

theorem openScope (inside : Inside opened opened' first second) :
    Inside opened opened' (Change.openScope.apply first) (Change.openScope.apply second) := by
  obtain ⟨alpha, own, alphas, alphas'⟩ := inside.scopes
  have pushed : first.contexts.push.alphas =
      first.context.alpha :: (alpha :: own ++ opened.contexts.alphas.tail) := by
    rw [ContextStack.alphas_push, alphas]
    rfl
  have pushed' : second.contexts.push.alphas =
      first.context.alpha :: (alpha :: own ++ opened'.contexts.alphas.tail) := by
    rw [ContextStack.alphas_push, alphas', inside.alpha]
    rfl
  exact inside.indentIn.rescope pushed pushed'

theorem openClipPath (inside : Inside opened opened' first second) (id : String) :
    Inside opened opened' ((Change.openClipPath id).apply first)
      ((Change.openClipPath id).apply second) := by
  obtain ⟨own, clips, clips'⟩ := inside.clips
  exact { inside.indentIn with
    clips := ⟨id :: own, congrArg (id :: ·) clips, congrArg (id :: ·) clips'⟩
    filtering := rfl
    filtering' := rfl
    body := inside.body.congr rfl rfl rfl rfl }

theorem openDefs (inside : Inside opened opened' first second) :
    Inside opened opened' (Change.openDefs.apply first) (Change.openDefs.apply second) := by
  obtain ⟨own, defs, defs'⟩ := inside.defs
  refine { inside.indentIn with
    defs := ⟨own + 1, ?_, ?_⟩
    body := inside.body.congr rfl rfl rfl rfl }
  · rw [Change.apply, defs, Nat.add_right_comm]
  · rw [Change.apply, defs', Nat.add_right_comm]

end Changes

section Runs

/-- Carrying out an instruction ends in the same way in two drawings, which are inside the same
pattern behind it. -/
def Follow (opened opened' : Drawing) (first second : Drawing × Outcome) : Prop :=
  first.2 = second.2 ∧ Inside opened opened' first.1 second.1

theorem refused (inside : Inside opened opened' first second) {plan plan' : Plan}
    {failure : Failure} (refused : plan = .refuse failure) (refused' : plan' = .refuse failure) :
    Follow opened opened' (plan.run first) (plan'.run second) := by
  subst refused refused'
  exact ⟨rfl, inside.fail failure⟩

theorem write (inside : Inside opened opened' first second) {pieces : List Piece}
    (short : ∀ piece ∈ pieces, piece.Short)
    (applied : ∀ {first second}, Inside opened opened' first second →
      Inside opened opened' (change.apply first) (change'.apply second)) :
    Follow opened opened' (Plan.run first (.write pieces change))
      (Plan.run second (.write pieces change')) := by
  have layout : first.layout = second.layout := congrArg Settings.layout inside.settings
  have writes' : (Plan.write pieces change').Writes second
      (pieces.foldl (Buffer.wrote first.layout) second.buffer) change' := by
    rw [layout]
    exact .write
  obtain ⟨added, grows, grows', line⟩ := inside.line.wroteEach pieces
  exact Plan.Writes.write.run_related writes' short short inside.unlimited inside.unlimited'
    inside.poisoned (inside.fail .poisoned)
    fun _ => applied (inside.append grows.text grows'.text line)

theorem close (inside : Inside opened opened' first second) {text : String}
    (applied : ∀ buffer buffer',
      Inside opened opened' { first with buffer := buffer } { second with buffer := buffer' } →
        Inside opened opened' (change.apply { first with buffer := buffer })
          (change'.apply { second with buffer := buffer' })) :
    Follow opened opened' (Plan.run first (.close text change))
      (Plan.run second (.close text change')) := by
  have line : first.buffer.indentOut.SameLine second.buffer.indentOut :=
    ⟨inside.line.column, congrArg (· - 1) inside.line.indent⟩
  obtain ⟨added, grows, grows', written⟩ := line.extended (text ++ "\n")
  exact Plan.Writes.close.run_related .close trivial trivial inside.unlimited inside.unlimited'
    inside.poisoned (inside.fail .poisoned)
    fun _ => applied _ _ (inside.append grows.text grows'.text written)

theorem closeScope (inside : Inside opened opened' first second)
    (within : opened.Within ((Bracket.closeScope.plan first).run first).1)
    (within' : opened'.Within ((Bracket.closeScope.plan second).run second).1) :
    Follow opened opened' ((Bracket.closeScope.plan first).run first)
      ((Bracket.closeScope.plan second).run second) := by
  cases usable : first.poisoned with
  | true =>
      exact inside.refused (if_pos usable) (if_pos (inside.poisoned ▸ usable))
  | false =>
      have usable' : second.poisoned = false := inside.poisoned ▸ usable
      obtain ⟨alpha, own, alphas, alphas'⟩ := inside.scopes
      have depth := ContextStack.depth_of_alphas alphas
      have depth' := ContextStack.depth_of_alphas alphas'
      cases own with
      | nil =>
          rw [List.length_nil, Nat.zero_add] at depth depth'
          exact inside.refused (within.closeScope inside.unlimited usable depth.le)
            (within'.closeScope inside.unlimited' usable' depth'.le)
      | cons next own =>
          have base : 0 < opened.contexts.depth := Nat.succ_pos _
          have base' : 0 < opened'.contexts.depth := Nat.succ_pos _
          rw [List.length_cons] at depth depth'
          have nested : 1 < first.contexts.depth := by omega
          have nested' : 1 < second.contexts.depth := by omega
          obtain ⟨top, outer, popped, -⟩ := ContextStack.pop?_of_nested nested
          obtain ⟨top', outer', popped', -⟩ := ContextStack.pop?_of_nested nested'
          have remaining := ContextStack.alphas_of_pop? popped
          have remaining' := ContextStack.alphas_of_pop? popped'
          rw [alphas] at remaining
          rw [alphas'] at remaining'
          rw [Bracket.closeScope_plan usable nested, Bracket.closeScope_plan usable' nested']
          refine inside.close fun buffer buffer' written => ?_
          simp only [Change.apply, popped, popped']
          exact written.rescope remaining remaining'

theorem closeClipPath (inside : Inside opened opened' first second)
    (within : opened.Within ((Bracket.closeClipPath.plan first).run first).1)
    (within' : opened'.Within ((Bracket.closeClipPath.plan second).run second).1) :
    Follow opened opened' ((Bracket.closeClipPath.plan first).run first)
      ((Bracket.closeClipPath.plan second).run second) := by
  cases usable : first.poisoned with
  | true =>
      exact inside.refused (if_pos usable) (if_pos (inside.poisoned ▸ usable))
  | false =>
      have usable' : second.poisoned = false := inside.poisoned ▸ usable
      obtain ⟨own, clips, clips'⟩ := inside.clips
      cases own with
      | nil =>
          have level := (congrArg List.length clips).le
          have level' := (congrArg List.length clips').le
          exact inside.refused (within.closeClipPath inside.unlimited usable level)
            (within'.closeClipPath inside.unlimited' usable' level')
      | cons id own =>
          rw [Bracket.closeClipPath_plan usable clips, Bracket.closeClipPath_plan usable' clips']
          refine inside.close fun buffer buffer' written => ?_
          obtain ⟨name, bounds, body, records, records'⟩ := inside.body
          refine { written with
            clips := ⟨own, rfl, rfl⟩
            clipPaths := congrArg (·.insert id ()) inside.clipPaths
            filtering := ?_
            filtering' := ?_
            body := written.body.congr rfl rfl rfl rfl }
          · simp [Change.apply, Drawing.refilter, records.pattern]
          · simp [Change.apply, Drawing.refilter, records'.pattern]

theorem closeDefs (inside : Inside opened opened' first second)
    (within : opened.Within ((Bracket.closeDefs.plan first).run first).1)
    (within' : opened'.Within ((Bracket.closeDefs.plan second).run second).1) :
    Follow opened opened' ((Bracket.closeDefs.plan first).run first)
      ((Bracket.closeDefs.plan second).run second) := by
  cases usable : first.poisoned with
  | true =>
      exact inside.refused (if_pos usable) (if_pos (inside.poisoned ▸ usable))
  | false =>
      have usable' : second.poisoned = false := inside.poisoned ▸ usable
      obtain ⟨own, defs, defs'⟩ := inside.defs
      cases own with
      | zero =>
          rw [Nat.zero_add] at defs defs'
          exact inside.refused (within.closeDefs inside.unlimited usable defs.le)
            (within'.closeDefs inside.unlimited' usable' defs'.le)
      | succ own =>
          rw [Bracket.closeDefs_plan usable (by omega), Bracket.closeDefs_plan usable' (by omega)]
          refine inside.close fun buffer buffer' written => ?_
          have remaining : first.openDefs - 1 = own + opened.openDefs := by omega
          have remaining' : second.openDefs - 1 = own + opened'.openDefs := by omega
          exact { written with
            defs := ⟨own, remaining, remaining'⟩
            body := written.body.congr rfl rfl rfl rfl }

/-- Every bracket is served alike, as long as nothing from outside the pattern is closed. -/
theorem bracket (inside : Inside opened opened' first second) (bracket : Bracket)
    (within : opened.Within ((bracket.plan first).run first).1)
    (within' : opened'.Within ((bracket.plan second).run second).1) :
    Follow opened opened' ((bracket.plan first).run first) ((bracket.plan second).run second) := by
  obtain ⟨name, bounds, body, records, records'⟩ := inside.body
  cases bracket with
  | openScope => exact inside.write (Plan.modest_line _ .openScope) openScope
  | openDefs => exact inside.write (Plan.modest_line _ .openDefs) openDefs
  | openClipPath id =>
      cases required : Drawing.require "clip-path id" id with
      | error failure =>
          have refused : ∀ drawing, (Bracket.openClipPath id).plan drawing = .refuse failure := by
            intro drawing
            rw [Bracket.plan, required]
            rfl
          exact inside.refused (refused first) (refused second)
      | ok id' =>
          have line : ∀ drawing, (Bracket.openClipPath id).plan drawing =
              .line ("push clip-path " ++ id') (.openClipPath id') := by
            intro drawing
            rw [Bracket.plan, required]
            rfl
          rw [line, line]
          exact inside.write (Plan.modest_line _ (.openClipPath id')) (·.openClipPath id')
  | openPattern id x y width height =>
      cases required : Drawing.require "pattern id" id with
      | error failure =>
          exact inside.refused (Bracket.openPattern_plan_of_error required)
            (Bracket.openPattern_plan_of_error required)
      | ok id' =>
          have refused : ∀ {drawing base}, Records drawing name bounds base body →
              (Bracket.openPattern id x y width height).plan drawing =
                .refuse (.patternAlreadyOpen name) := by
            intro drawing base records
            rw [Bracket.plan, required, records.pattern]
            rfl
          exact inside.refused (refused records) (refused records')
  | closeScope => exact inside.closeScope within within'
  | closeClipPath => exact inside.closeClipPath within within'
  | closeDefs => exact inside.closeDefs within within'
  | closePattern =>
      cases usable : first.poisoned with
      | true => exact inside.refused (if_pos usable) (if_pos (inside.poisoned ▸ usable))
      | false =>
          have still := within.pattern
          rw [Bracket.plan, usable, if_neg Bool.false_ne_true, records.pattern] at still
          simp only [Plan.run_close inside.unlimited usable] at still
          cases still

theorem akin (inside : Inside opened opened' first second) {plan plan' : Plan}
    (akin : plan.Akin plan')
    (short : ∀ pieces change, plan = .write pieces change → ∀ piece ∈ pieces, piece.Short) :
    Follow opened opened' (plan.run first) (plan'.run second) := by
  cases akin with
  | refuse failure => exact inside.refused rfl rfl
  | keep => exact ⟨rfl, inside⟩
  | adjust same => exact ⟨rfl, inside.modify same⟩
  | write pieces akin => exact inside.write (short _ _ rfl) (·.apply akin)

/-- Requests are served alike inside the same pattern, as long as nothing from outside it is
closed. -/
theorem serve (inside : Inside opened opened' first second) {request : Request}
    (goesOn : request.call.GoesOn) (within : opened.Within (first.serve request).1)
    (within' : opened'.Within (second.serve request).1) :
    Follow opened opened' (first.serve request) (second.serve request) := by
  obtain ⟨tools, call⟩ := request
  cases planned : call.plan? tools first with
  | some plan =>
      rcases Call.plan?_cases planned with ⟨plain, -⟩ | ⟨bracket, rfl, rfl⟩
      · obtain ⟨plan', planned', akin⟩ := inside.plan? plain planned
        rw [Drawing.serve, Drawing.serve, Drawing.call_eq_run planned, Drawing.call_eq_run planned']
        refine inside.akin akin ?_
        rintro pieces change rfl
        exact Call.plan?_short planned
      · exact inside.bracket bracket within within'
  | none =>
      cases call with
      | instruct _ | accent _ _ => cases planned
      | composite placement picture =>
          have flat := (Drawing.composite_of_unplanned planned).1
          simp only [Drawing.serve, Drawing.call, Drawing.composite, flat]
          exact ⟨rfl, inside⟩
      | clearError => exact ⟨rfl, { inside with body := inside.body.congr rfl rfl rfl rfl }⟩
      | render _ | dropProgram | clear => exact goesOn.elim

theorem perform {requests : List Request} (inside : Inside opened opened' first second)
    (goesOn : ∀ request ∈ requests, request.call.GoesOn)
    (within : ∀ earlier, earlier <+: requests → opened.Within (first.perform earlier))
    (within' : ∀ earlier, earlier <+: requests → opened'.Within (second.perform earlier)) :
    first.outcomes requests = second.outcomes requests ∧
      Inside opened opened' (first.perform requests) (second.perform requests) := by
  induction requests generalizing first second with
  | nil => exact ⟨rfl, inside⟩
  | cons request rest ih =>
      obtain ⟨here, later⟩ := List.forall_mem_cons.mp goesOn
      have alone : [request] <+: request :: rest := ⟨rest, rfl⟩
      obtain ⟨same, next⟩ := inside.serve here (within _ alone) (within' _ alone)
      have behind : ∀ {earlier}, earlier <+: rest → request :: earlier <+: request :: rest :=
        fun before => List.cons_prefix_cons.mpr ⟨rfl, before⟩
      obtain ⟨others, last⟩ := ih next later (fun _ before => within _ (behind before))
        fun _ before => within' _ (behind before)
      exact ⟨List.cons_eq_cons.mpr ⟨same, others⟩, last⟩

end Runs

section Ends

/-- Opening a pattern in two drawings under the same indentation leads inside it. -/
theorem begin {id : String} {bounds : PatternBounds} {text : String}
    (unlimited : first.layout.limit = none) (settings : first.settings = second.settings)
    (indent : first.buffer.indent = second.buffer.indent) (path : first.path = second.path)
    (artifacts : first.canvas.artifacts = second.canvas.artifacts)
    (clipPaths : first.clipPaths = second.clipPaths)
    (alpha : first.context.alpha = second.context.alpha)
    (poisoned : first.poisoned = second.poisoned) :
    let opened := (Change.openPattern id bounds).apply
      { first with buffer := first.buffer.extended (text ++ "\n") }
    let opened' := (Change.openPattern id bounds).apply
      { second with buffer := second.buffer.extended (text ++ "\n") }
    Inside opened opened' opened opened' := by
  intro opened opened'
  have line : opened.buffer.SameLine opened'.buffer := by
    refine ⟨?_, congrArg (· + 1) indent⟩
    exact (first.buffer.column_line text).trans (second.buffer.column_line text).symm
  have alphas := first.contexts.alphas_eq_cons
  have alphas' := second.contexts.alphas_eq_cons
  have same : second.contexts.current.alpha = first.contexts.current.alpha := alpha.symm
  rw [same] at alphas'
  exact {
    settings, line, alpha, path, artifacts, clipPaths, poisoned, unlimited
    filtering := rfl
    filtering' := rfl
    scopes := ⟨first.context.alpha, [], alphas, alphas'⟩
    clips := ⟨[], rfl, rfl⟩
    defs := ⟨0, (Nat.zero_add _).symm, (Nat.zero_add _).symm⟩
    body := ⟨id, bounds, "", ⟨rfl, String.append_empty.symm⟩, ⟨rfl, String.append_empty.symm⟩⟩ }

/-- Closing the pattern publishes the same in both drawings. -/
theorem publishes (inside : Inside opened opened' first second) :
    ((Bracket.closePattern.plan first).run first).2 =
        ((Bracket.closePattern.plan second).run second).2 ∧
      ((Bracket.closePattern.plan first).run first).1.canvas.artifacts =
        ((Bracket.closePattern.plan second).run second).1.canvas.artifacts := by
  cases usable : first.poisoned with
  | true =>
      have refused : Bracket.closePattern.plan first = .refuse .poisoned := if_pos usable
      have refused' : Bracket.closePattern.plan second = .refuse .poisoned :=
        if_pos (inside.poisoned ▸ usable)
      rw [refused, refused']
      exact ⟨rfl, inside.artifacts⟩
  | false =>
      have usable' : second.poisoned = false := inside.poisoned ▸ usable
      obtain ⟨id, bounds, body, records, records'⟩ := inside.body
      rw [records.closePattern_plan usable, records'.closePattern_plan usable',
        Plan.run_close inside.unlimited usable, Plan.run_close inside.unlimited' usable']
      have published := Canvas.artifacts_publish inside.artifacts first.settings.geometryKey id
        bounds body opened.program.utf8ByteSize opened'.program.utf8ByteSize
      have geometry := congrArg Settings.geometryKey inside.settings
      refine ⟨rfl, published.trans ?_⟩
      rw [geometry]
      rfl

end Ends

end Inside

/-- What stands in a pattern, what it publishes and how its calls end does not depend on what is
around it.  The drawings may differ in all their contexts, except for the general opacity in force,
and in everything that is open; the calls inside the pattern may close only what they opened. -/
theorem pattern_ignores_surroundings (tools tools' : Tools) (id : String) (x y width height : Float)
    {inner : List Request} (usable : first.poisoned = false) (usable' : second.poisoned = false)
    (vacant : first.pattern = none) (vacant' : second.pattern = none)
    (unlimited : first.settings.maxBytes = none) (settings : first.settings = second.settings)
    (indent : first.buffer.indent = second.buffer.indent) (path : first.path = second.path)
    (artifacts : first.canvas.artifacts = second.canvas.artifacts)
    (clipPaths : first.clipPaths = second.clipPaths)
    (alpha : first.context.alpha = second.context.alpha)
    (goesOn : ∀ request ∈ inner, request.call.GoesOn) :
    let opening : Request := ⟨tools, .instruct (.bracket (.openPattern id x y width height))⟩
    let closing : Request := ⟨tools', .instruct (.bracket .closePattern)⟩
    let opened := (first.serve opening).1
    let opened' := (second.serve opening).1
    (first.serve opening).2 = (second.serve opening).2 ∧
      ((first.serve opening).2 = .done →
        (∀ earlier, earlier <+: inner → opened.Within (opened.perform earlier)) →
        (∀ earlier, earlier <+: inner → opened'.Within (opened'.perform earlier)) →
        opened.outcomes inner = opened'.outcomes inner ∧
          ((opened.perform inner).serve closing).2 = ((opened'.perform inner).serve closing).2 ∧
          ((opened.perform inner).serve closing).1.canvas.artifacts =
            ((opened'.perform inner).serve closing).1.canvas.artifacts ∧
          ∃ body, (opened.perform inner).program = opened.program ++ body ∧
            (opened'.perform inner).program = opened'.program ++ body) := by
  intro opening closing opened opened'
  cases required : Drawing.require "pattern id" id with
  | error failure =>
      have refused : ∀ drawing : Drawing, drawing.serve opening = drawing.fail failure :=
        fun drawing => congrArg (Plan.run drawing) (Bracket.openPattern_plan_of_error required)
      rw [refused, refused]
      exact ⟨rfl, nofun⟩
  | ok name =>
      let text := "push pattern " ++ name ++ " " ++ Number.coordinatePair x y ++ " " ++
        Number.coordinatePair width height
      let bounds := PatternBounds.ofRectangle x y width height
      have served : ∀ {drawing : Drawing}, drawing.poisoned = false → drawing.pattern = none →
          drawing.settings.maxBytes = none →
          drawing.serve opening = ((Change.openPattern name bounds).apply
            { drawing with buffer := drawing.buffer.extended (text ++ "\n") }, .done) := by
        intro drawing usable vacant unlimited
        have planned : (Bracket.openPattern id x y width height).plan drawing =
            .line text (.openPattern name bounds) := by
          rw [Bracket.plan, required, vacant]
          rfl
        exact (congrArg (Plan.run drawing) planned).trans (Plan.run_line unlimited usable)
      have serves := served usable vacant unlimited
      have serves' := served usable' vacant' (settings ▸ unlimited)
      have begins : Inside opened opened' opened opened' := by
        simp only [opened, opened', serves, serves']
        exact Inside.begin unlimited settings indent path artifacts clipPaths alpha
          (usable.trans usable'.symm)
      refine ⟨by rw [serves, serves'], fun _ within within' => ?_⟩
      obtain ⟨outcomes, inside⟩ := begins.perform goesOn within within'
      obtain ⟨ends, published⟩ := inside.publishes
      obtain ⟨_, _, body, records, records'⟩ := inside.body
      exact ⟨outcomes, ends, published, body, records.program, records'.program⟩

/-- A pattern that sets the fill once more behind a clip path, in a scope that is already filled in
that color and in a block of definitions that is not. -/
theorem pattern_ignores_surroundings_of_scope :
    let red : Call := .instruct (.setting (.paint .fill ⟨255, 0, 0, 255⟩))
    let first := (Drawing.start {} ⟨64, 64, .empty⟩).calls {} [.instruct (.bracket .openDefs)]
    let second := (Drawing.start {} ⟨64, 64, .empty⟩).calls {}
      [.instruct (.bracket .openScope), red]
    let opening : Request := ⟨{}, .instruct (.bracket (.openPattern "p" 0 0 8 8))⟩
    let inner : List Request := [⟨{}, .instruct (.bracket (.openClipPath "c"))⟩,
      ⟨{}, .instruct (.bracket .closeClipPath)⟩, ⟨{}, red⟩]
    let closing : Request := ⟨{}, .instruct (.bracket .closePattern)⟩
    first.context.fill ≠ second.context.fill ∧
      (first.perform (opening :: (inner ++ [closing]))).canvas.artifacts =
        (second.perform (opening :: (inner ++ [closing]))).canvas.artifacts ∧
      first.outcomes (opening :: (inner ++ [closing])) = [.done, .done, .done, .done, .done] := by
  intro red first second opening inner closing
  have goesOn : ∀ request ∈ inner, request.call.GoesOn := by
    intro request member
    simp only [inner, List.mem_cons, List.not_mem_nil, or_false] at member
    rcases member with rfl | rfl | rfl <;> trivial
  have usable : first.poisoned = false ∧ second.poisoned = false := ⟨rfl, rfl⟩
  have vacant : first.pattern = none ∧ second.pattern = none := ⟨rfl, rfl⟩
  obtain ⟨-, same⟩ := pattern_ignores_surroundings {} {} "p" 0 0 8 8 usable.1 usable.2 vacant.1
    vacant.2 rfl rfl rfl rfl rfl rfl rfl goesOn
  have done : (first.serve opening).2 = .done := by decide +kernel
  have kept : ∀ earlier ∈ inner.inits,
      (first.serve opening).1.Within ((first.serve opening).1.perform earlier) := by
    decide +kernel
  have kept' : ∀ earlier ∈ inner.inits,
      (second.serve opening).1.Within ((second.serve opening).1.perform earlier) := by
    decide +kernel
  obtain ⟨-, -, published, -⟩ := same done
    (fun _ before => kept _ ((List.mem_inits _ _).mpr before))
    fun _ before => kept' _ ((List.mem_inits _ _).mpr before)
  have ends : ∀ drawing : Drawing, drawing.perform (opening :: (inner ++ [closing])) =
      (((drawing.serve opening).1.perform inner).serve closing).1 := by
    intro drawing
    rw [Drawing.perform, Drawing.perform_append]
    rfl
  refine ⟨by decide +kernel, ?_, by decide +kernel⟩
  rw [ends, ends]
  simpa only [opening, closing] using published

end Quill
