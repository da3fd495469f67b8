import Mathlib.Data.List.Forall2
import Quill.Proofs.Inputs
import Quill.Proofs.Scopes
import Quill.Proofs.Surroundings

/-!
# Drawings side by side

Two drawings go through the same calls.  Their texts, what they published and some attributes of
their contexts differ, but no call looks at those attributes.  Then every call appends the same to
both programs, and the drawings stay beside each other.
-/

namespace Quill

namespace Drawing

/-- Two drawings that differ at most in their texts, in attributes of contexts that are not kept
and in patterns that are not known. -/
structure Beside (kept : Attribute → Prop) (known : String → Prop) (first second : Drawing) :
    Prop where
  unlimited : first.layout.limit = none
  settings : first.settings = second.settings
  line : first.buffer.SameLine second.buffer
  contexts : List.Forall₂ (Context.AgreeOn kept) first.contexts.toList second.contexts.toList
  path : first.path = second.path
  pattern : first.pattern.map (·.id) = second.pattern.map (·.id)
  openClips : first.openClips = second.openClips
  openDefs : first.openDefs = second.openDefs
  clipPaths : first.clipPaths = second.clipPaths
  filtering : first.filtering = second.filtering
  poisoned : first.poisoned = second.poisoned
  artifacts : ∀ name, known name →
    (first.canvas.artifact? (patternKey name)).isSome =
      (second.canvas.artifact? (patternKey name)).isSome

/-- Two drawings that are led to by appending the same text, and that are beside each other. -/
structure Stays (kept : Attribute → Prop) (known : String → Prop)
    (first second next next' : Drawing) : Prop where
  added : first.added next = second.added next'
  beside : next.Beside kept known next'

/-- Two calls that end in the same way, append the same text and keep drawings beside each other. -/
def Follow (kept : Attribute → Prop) (known : String → Prop) (first second : Drawing)
    (served served' : Drawing × Outcome) : Prop :=
  served.2 = served'.2 ∧ Stays kept known first second served.1 served'.1

/-- The texts that requests append, one after the other. -/
def additions (drawing : Drawing) : List Request → List String
  | [] => []
  | request :: rest =>
    drawing.added (drawing.serve request).1 :: (drawing.serve request).1.additions rest

end Drawing

/-- Unless it is dropped, a program grows by what the requests append. -/
theorem Reachable.program_additions {drawing : Drawing} {requests : List Request}
    (reachable : Reachable drawing)
    (kept : ∀ request ∈ requests, request.call ≠ .clear ∧ request.call ≠ .dropProgram) :
    (drawing.perform requests).program =
      (drawing.additions requests).foldl (· ++ ·) drawing.program := by
  induction requests generalizing drawing with
  | nil => rfl
  | cons request rest ih =>
      obtain ⟨⟨uncleared, undropped⟩, later⟩ := List.forall_mem_cons.mp kept
      have called : drawing.call request.tools request.call = drawing.serve request := rfl
      obtain ⟨written, grown⟩ := (reachable.effect called).program_grows uncleared undropped
      have appended : drawing.added (drawing.serve request).1 = written := Drawing.added_eq grown
      have next : drawing.program ++ written = (drawing.serve request).1.program := grown.symm
      rw [Drawing.perform, Drawing.additions, List.foldl_cons, appended, next]
      exact ih (reachable.of_serve request) later

/-- Two changes of contexts that lead from agreement to agreement. -/
def KeepAgreement (kept : Attribute → Prop) (update update' : Context → Context) : Prop :=
  ∀ context context' : Context, context.AgreeOn kept context' →
    (update context).AgreeOn kept (update' context')

/-- A change that leaves attributes alone. -/
def Change.Elsewhere : Change → Prop
  | .context _ => False
  | _ => True

/-- Changes that do the same, but for attributes of contexts and for what a pattern holds. -/
inductive Change.Kin (kept : Attribute → Prop) : Change → Change → Prop
  | same {change : Change} (elsewhere : change.Elsewhere) : Kin kept change change
  | context {update update' : Context → Context} (agree : KeepAgreement kept update update') :
      Kin kept (.context update) (.context update')
  | closePattern {capture capture' : Capture} {body body' : String}
      (id : capture.id = capture'.id) :
      Kin kept (.closePattern capture body) (.closePattern capture' body')

/-- Plans that write the same text and do the same, but for attributes of contexts and for what a
pattern holds. -/
inductive Plan.Kin (kept : Attribute → Prop) : Plan → Plan → Prop
  | refuse (failure : Failure) : Kin kept (.refuse failure) (.refuse failure)
  | keep : Kin kept .keep .keep
  | adjust {update update' : Context → Context} (agree : KeepAgreement kept update update') :
      Kin kept (.adjust update) (.adjust update')
  | write (pieces : List Piece) {change change' : Change} (kin : change.Kin kept change') :
      Kin kept (.write pieces change) (.write pieces change')
  | close (text : String) {change change' : Change} (kin : change.Kin kept change') :
      Kin kept (.close text change) (.close text change')

section Stacks

variable {related : Context → Context → Prop} {stack stack' : ContextStack}

theorem ContextStack.current_related
    (all : List.Forall₂ related stack.toList stack'.toList) :
    related stack.current stack'.current := by
  rw [stack.toList_eq_cons, stack'.toList_eq_cons] at all
  exact (List.forall₂_cons.mp all).1

theorem ContextStack.modify_related {update update' : Context → Context}
    (all : List.Forall₂ related stack.toList stack'.toList)
    (top : related (update stack.current) (update' stack'.current)) :
    List.Forall₂ related (stack.modify update).toList (stack'.modify update').toList := by
  rw [stack.toList_eq_cons, stack'.toList_eq_cons] at all
  rw [toList_modify, toList_modify]
  exact .cons top (List.forall₂_cons.mp all).2

theorem ContextStack.push_related (all : List.Forall₂ related stack.toList stack'.toList) :
    List.Forall₂ related stack.push.toList stack'.push.toList := by
  rw [toList_push, toList_push]
  exact .cons (current_related all) all

theorem ContextStack.depth_related (all : List.Forall₂ related stack.toList stack'.toList) :
    stack.depth = stack'.depth := by
  rw [← length_toList, ← length_toList]
  exact all.length_eq

theorem ContextStack.pop?_related (all : List.Forall₂ related stack.toList stack'.toList) :
    stack.pop? = none ∧ stack'.pop? = none ∨
      ∃ top outer top' outer', stack.pop? = some (top, outer) ∧
        stack'.pop? = some (top', outer') ∧
          List.Forall₂ related outer.toList outer'.toList := by
  rcases stack with ⟨root, scopes⟩
  rcases stack' with ⟨root', scopes'⟩
  have depth := depth_related all
  cases scopes with
  | nil =>
      cases scopes' with
      | nil => exact .inl ⟨rfl, rfl⟩
      | cons top' outer' => simp [ContextStack.depth] at depth
  | cons top outer =>
      cases scopes' with
      | nil => simp [ContextStack.depth] at depth
      | cons top' outer' =>
          exact .inr ⟨top, _, top', _, rfl, rfl, (List.forall₂_cons.mp all).2⟩

end Stacks

theorem Canvas.isSome_publish (canvas : Canvas) (geometry : GeometryKey) (capture : Capture)
    (body name : String) :
    ((canvas.publish geometry capture body).artifact? (patternKey name)).isSome =
      (decide (name = capture.id) || (canvas.artifact? (patternKey name)).isSome) := by
  by_cases equal : name = capture.id
  · subst equal
    cases geometry <;> simp [publish, Canvas.artifact?_setArtifact, patternKey_ne_geometryKey]
  · have apart : patternKey name ≠ patternKey capture.id :=
      fun same => equal (patternKey_injective same)
    cases geometry <;>
      simp [publish, Canvas.artifact?_setArtifact, patternKey_ne_geometryKey, apart, equal]

section Steps

variable {kept : Attribute → Prop} {known : String → Prop} {tools : Tools}
  {first second : Drawing} {buffer buffer' : Buffer} {change change' : Change}
  {plan plan' : Plan} {call : Call} {request : Request}

namespace Drawing.Beside

theorem unlimited' (beside : first.Beside kept known second) : second.layout.limit = none := by
  have limit := beside.unlimited
  rwa [Drawing.layout, beside.settings] at limit

theorem context (beside : first.Beside kept known second) :
    first.context.AgreeOn kept second.context :=
  ContextStack.current_related beside.contexts

theorem pattern_isNone (beside : first.Beside kept known second) :
    first.pattern.isNone = second.pattern.isNone := by
  have same := congrArg Option.isNone beside.pattern
  rwa [Option.isNone_map, Option.isNone_map] at same

theorem fail (beside : first.Beside kept known second) (failure : Failure) :
    (first.record failure).Beside kept known (second.record failure) := by
  refine { beside with poisoned := ?_ }
  rw [Drawing.record, Drawing.record, beside.poisoned]

theorem modify (beside : first.Beside kept known second) {update update' : Context → Context}
    (agree : KeepAgreement kept update update') :
    Beside kept known { first with contexts := first.contexts.modify update }
      { second with contexts := second.contexts.modify update' } :=
  { beside with contexts := ContextStack.modify_related beside.contexts (agree _ _ beside.context) }

theorem indentIn (beside : first.Beside kept known second) :
    Beside kept known { first with buffer := first.buffer.indentIn }
      { second with buffer := second.buffer.indentIn } :=
  { beside with line := ⟨beside.line.column, congrArg (· + 1) beside.line.indent⟩ }

theorem closePattern (beside : first.Beside kept known second) {capture capture' : Capture}
    {body body' : String} (id : capture.id = capture'.id) :
    ((Change.closePattern capture body).apply first).Beside kept known
      ((Change.closePattern capture' body').apply second) := by
  refine { beside with pattern := rfl, filtering := ?_, artifacts := ?_ }
  · simp [Change.apply, Drawing.refilter, beside.openClips]
  · intro name isKnown
    simp only [Change.apply, Drawing.refilter, Canvas.isSome_publish, id]
    rw [beside.artifacts name isKnown]

theorem apply (beside : first.Beside kept known second) (kin : change.Kin kept change') :
    (change.apply first).Beside kept known (change'.apply second) := by
  cases kin with
  | context agree => exact beside.modify agree
  | closePattern id => exact beside.closePattern id
  | same elsewhere =>
      cases change with
      | nothing => exact beside
      | context update => exact elsewhere.elim
      | path state => exact { beside with path := rfl }
      | openScope =>
          have pushed := ContextStack.push_related beside.contexts
          exact { beside.indentIn with contexts := pushed }
      | closeScope =>
          rcases ContextStack.pop?_related beside.contexts with
            ⟨flat, flat'⟩ | ⟨top, outer, top', outer', popped, popped', rest⟩
          · simp only [Change.apply, flat, flat']
            exact beside
          · simp only [Change.apply, popped, popped']
            exact { beside with contexts := rest }
      | openPattern id bounds => exact { beside.indentIn with pattern := rfl, filtering := rfl }
      | closePattern capture body => exact beside.closePattern rfl
      | openClipPath id =>
          have clips := congrArg (id :: ·) beside.openClips
          exact { beside.indentIn with openClips := clips, filtering := rfl }
      | closeClipPath id outer =>
          refine { beside with openClips := rfl, clipPaths := ?_, filtering := ?_ }
          · exact congrArg (·.insert id ()) beside.clipPaths
          · exact congrArg (· && outer.isEmpty) beside.pattern_isNone
      | openDefs => exact { beside.indentIn with openDefs := congrArg (· + 1) beside.openDefs }
      | closeDefs => exact { beside with openDefs := congrArg (· - 1) beside.openDefs }

theorem idle {next next' : Drawing} (beside : next.Beside kept known next')
    (same : next.buffer = first.buffer) (same' : next'.buffer = second.buffer) :
    Stays kept known first second next next' := by
  constructor
  · rw [Drawing.added_nothing (congrArg Buffer.text same),
      Drawing.added_nothing (congrArg Buffer.text same')]
  · exact beside

theorem writes (beside : first.Beside kept known second) {added : String}
    (writes : plan.Writes first buffer change) (writes' : plan'.Writes second buffer' change')
    (modest : plan.Modest) (modest' : plan'.Modest) (kin : change.Kin kept change')
    (line : buffer.SameLine buffer') (text : buffer.text = first.program ++ added)
    (text' : buffer'.text = second.program ++ added) :
    Follow kept known first second (plan.run first) (plan'.run second) := by
  have failed : Stays kept known first second (first.record .poisoned) (second.record .poisoned) :=
    idle (beside.fail .poisoned) rfl rfl
  have ended : Stays kept known first second (change.apply { first with buffer := buffer })
      (change'.apply { second with buffer := buffer' }) := by
    have extended : Beside kept known { first with buffer := buffer }
      { second with buffer := buffer' } := { beside with line := line }
    refine ⟨?_, extended.apply kin⟩
    rw [Change.added_apply change text, Change.added_apply change' text']
  exact writes.run_related writes' modest modest' beside.unlimited beside.unlimited'
    beside.poisoned failed fun _ => ended

/-- Plans that are kin are carried out alike. -/
theorem run (beside : first.Beside kept known second) (kin : plan.Kin kept plan')
    (short : ∀ pieces change, plan = .write pieces change → ∀ piece ∈ pieces, piece.Short) :
    Follow kept known first second (plan.run first) (plan'.run second) := by
  cases kin with
  | refuse failure => exact ⟨rfl, idle (beside.fail failure) rfl rfl⟩
  | keep => exact ⟨rfl, idle beside rfl rfl⟩
  | adjust agree => exact ⟨rfl, idle (beside.modify agree) rfl rfl⟩
  | write pieces kin =>
      have layout : first.layout = second.layout := congrArg Settings.layout beside.settings
      obtain ⟨added, grows, grows', line⟩ := beside.line.wroteEach pieces
      refine beside.writes .write ?_ (short _ _ rfl) (short _ _ rfl) kin line grows.text grows'.text
      rw [layout]
      exact .write
  | close text kin =>
      have outdented : first.buffer.indentOut.SameLine second.buffer.indentOut :=
        ⟨beside.line.column, congrArg (· - 1) beside.line.indent⟩
      obtain ⟨added, grows, grows', line⟩ := outdented.extended (text ++ "\n")
      exact beside.writes .close .close trivial trivial kin line grows.text grows'.text

theorem edit (beside : first.Beside kept known second) (untransformed : ¬ kept .transform)
    {edit edit' : Edit} (same : edit.Same edit')
    (frame : ∀ kind ∉ edit.target.touched, ∀ context : Context,
      (edit.change context).value kind = context.value kind)
    (frame' : ∀ kind ∉ edit.target.touched, ∀ context : Context,
      (edit'.change context).value kind = context.value kind) :
    (edit.plan first).Kin kept (edit'.plan second) := by
  have agree : KeepAgreement kept edit.change edit'.change := by
    intro context context' agree
    exact same.agreeOn untransformed (fun kind other => frame kind other context)
      (fun kind other => frame' kind other context') agree
  simp only [Edit.plan, Drawing.updateSpelled, beside.filtering, same.differs, same.word,
    same.spelling]
  split
  · exact .keep
  cases edit'.spelling with
  | none => exact .adjust agree
  | some spelling => exact .write _ (.context agree)

theorem setting (beside : first.Beside kept known second) (untransformed : ¬ kept .transform)
    (setting : Setting) (inputs : ∀ kind ∈ setting.inputs, kept kind)
    (reference : ∀ side url, setting = .paintPattern side url →
      first.patternReference url = second.patternReference url) :
    (setting.plan tools first).Kin kept (setting.plan tools second) := by
  have agree : ∀ kind ∈ setting.inputs, first.context.value kind = second.context.value kind :=
    fun kind member => beside.context kind (inputs kind member)
  have alike : Edit.Match (setting.edit? tools first) (setting.edit? tools second) :=
    setting.edit?_match agree beside.clipPaths reference
  rw [setting.plan_eq_edit, setting.plan_eq_edit]
  generalize edits : setting.edit? tools first = planned at alike ⊢
  generalize edits' : setting.edit? tools second = planned' at alike ⊢
  cases alike with
  | refused failure => exact .refuse failure
  | same same =>
      refine beside.edit untransformed same ?_ ?_
      · exact fun kind other context => setting.edit?_frame context edits other
      · rw [same.target]
        exact fun kind other context => setting.edit?_frame context edits' other

theorem bracket (beside : first.Beside kept known second) (bracket : Bracket) :
    (bracket.plan first).Kin kept (bracket.plan second) := by
  have depth : first.contexts.depth = second.contexts.depth :=
    ContextStack.depth_related beside.contexts
  have same : ∀ {change : Change} (text : String), change.Elsewhere →
      (Plan.line text change).Kin kept (Plan.line text change) :=
    fun text elsewhere => .write _ (.same elsewhere)
  cases bracket with
  | openScope => exact same _ trivial
  | openDefs => exact same _ trivial
  | openClipPath id =>
      simp only [Bracket.plan]
      cases Drawing.require "clip-path id" id with
      | error failure => exact .refuse failure
      | ok id => exact same _ trivial
  | openPattern id x y width height =>
      simp only [Bracket.plan]
      cases Drawing.require "pattern id" id with
      | error failure => exact .refuse failure
      | ok id =>
          have pattern := beside.pattern
          cases opened : first.pattern <;> cases opened' : second.pattern <;>
            simp only [opened, opened', Option.map_some, Option.map_none, reduceCtorEq,
              Option.some.injEq] at pattern
          · exact same _ trivial
          · simp only [Plan.checked, pattern]
            exact .refuse _
  | closePattern =>
      simp only [Bracket.plan, beside.poisoned]
      split
      · exact .refuse _
      · have pattern := beside.pattern
        cases opened : first.pattern <;> cases opened' : second.pattern <;>
          simp only [opened, opened', Option.map_some, Option.map_none, reduceCtorEq,
            Option.some.injEq] at pattern
        · exact .refuse _
        · exact .close _ (.closePattern pattern)
  | closeScope =>
      simp only [Bracket.plan, beside.poisoned, depth]
      split
      · exact .refuse _
      split
      · exact .refuse _
      · exact .close _ (.same trivial)
  | closeClipPath =>
      simp only [Bracket.plan, beside.poisoned, beside.openClips]
      split
      · exact .refuse _
      split
      · exact .refuse _
      · exact .close _ (.same trivial)
  | closeDefs =>
      simp only [Bracket.plan, beside.poisoned, beside.openDefs]
      split
      · exact .refuse _
      split
      · exact .refuse _
      · exact .close _ (.same trivial)

/-- A call that looks at attributes that are kept, and at no pattern that is not known, is planned
alike. -/
theorem plan? (beside : first.Beside kept known second) (untransformed : ¬ kept .transform)
    (inputs : ∀ kind ∈ call.inputs, kept kind)
    (reference : ∀ side url, call = .instruct (.setting (.paintPattern side url)) →
      first.patternReference url = second.patternReference url)
    (planned : call.plan? tools first = some plan) :
    ∃ plan', call.plan? tools second = some plan' ∧ plan.Kin kept plan' := by
  cases call with
  | instruct instruction =>
      cases planned
      refine ⟨_, rfl, ?_⟩
      cases instruction with
      | setting change =>
          refine beside.setting untransformed change inputs ?_
          rintro side url rfl
          exact reference side url rfl
      | motion move =>
          simp only [Instruction.plan, Motion.plan]
          split
          · exact .keep
          · refine .write _ (.context ?_)
            intro context context' agree kind keeps
            have same := agree kind keeps
            cases kind with
            | transform => exact (untransformed keeps).elim
            | _ => exact same
      | shape figure => exact .write _ (.same trivial)
      | path step =>
          have same : step.plan first = step.plan second := by
            simp only [Path.Step.plan, beside.path]
          rw [Instruction.plan, Instruction.plan, same]
          cases step <;> exact .write _ (.same trivial)
      | bracket edge => exact beside.bracket edge
      | comment text => exact .write _ (.same trivial)
  | accent kind color =>
      cases planned
      refine ⟨_, rfl, ?_⟩
      have held := beside.context _ (inputs _ List.mem_cons_self)
      rw [Drawing.accentPlan_eq_edit, Drawing.accentPlan_eq_edit]
      have frame : ∀ other ∉ (Attribute.accent kind).touched, ∀ context : Context,
          (context.setAccent kind color).value other = context.value other :=
        fun other untouched context =>
          context.value_setAccent (List.ne_of_not_mem_cons untouched) color
      exact beside.edit untransformed (Context.accentEdit_same held color) frame frame
  | composite placement picture =>
      have same : (Call.composite placement picture).plan? tools first =
          (Call.composite placement picture).plan? tools second := by
        simp only [Call.plan?, beside.poisoned, beside.settings]
      rw [same] at planned
      refine ⟨plan, planned, ?_⟩
      rcases Call.composite_plan_cases planned with rfl | ⟨failure, -, rfl⟩ | ⟨encoded, rfl⟩
      · exact .refuse _
      · exact .refuse _
      · exact .write _ (.same trivial)
  | render _ | dropProgram | clear | clearError => cases planned

theorem dropProgram (beside : first.Beside kept known second) :
    Stays kept known first second first.dropProgram second.dropProgram := by
  have dropped : ∀ drawing : Drawing, drawing.added drawing.dropProgram = "" := by
    intro drawing
    simp only [added, Drawing.dropProgram, Buffer.clear, Buffer.since]
    cases drawing.buffer.size <;> rfl
  refine ⟨(dropped first).trans (dropped second).symm, ?_⟩
  refine { beside with line := ⟨rfl, beside.line.indent⟩, path := rfl, pattern := ?_ }
  simp only [Drawing.dropProgram, Option.map_map]
  exact beside.pattern

theorem clear (beside : first.Beside kept known second) :
    Stays kept known first second first.clear second.clear := by
  have cleared : ∀ drawing : Drawing, drawing.added drawing.clear = "" := by
    intro drawing
    simp only [added, Drawing.clear, Buffer.reset, Buffer.clear, Buffer.since]
    cases drawing.buffer.size <;> rfl
  refine ⟨(cleared first).trans (cleared second).symm, ?_⟩
  exact { beside with
    line := ⟨rfl, rfl⟩
    contexts := .cons (fun _ _ => rfl) .nil
    path := rfl
    pattern := rfl
    openClips := rfl
    openDefs := rfl
    clipPaths := rfl
    filtering := rfl
    poisoned := rfl }

/-- Calls that draw nothing are served alike. -/
theorem serve (beside : first.Beside kept known second) (untransformed : ¬ kept .transform)
    (inputs : ∀ kind ∈ request.call.inputs, kept kind)
    (reference : ∀ side url, request.call = .instruct (.setting (.paintPattern side url)) →
      first.patternReference url = second.patternReference url)
    (undrawn : ∀ rasterizer, request.call ≠ .render rasterizer) :
    Follow kept known first second (first.serve request) (second.serve request) := by
  obtain ⟨tools, call⟩ := request
  cases planned : call.plan? tools first with
  | some plan =>
      obtain ⟨plan', planned', kin⟩ := beside.plan? untransformed inputs reference planned
      rw [Drawing.serve, Drawing.serve, Drawing.call_eq_run planned, Drawing.call_eq_run planned']
      refine beside.run kin ?_
      rintro pieces change rfl
      exact Call.plan?_short planned
  | none =>
      cases call with
      | instruct _ | accent _ _ => cases planned
      | composite placement picture =>
          have flat := (Drawing.composite_of_unplanned planned).1
          simp only [Drawing.serve, Drawing.call, Drawing.composite, flat]
          exact ⟨rfl, idle beside rfl rfl⟩
      | render rasterizer => exact (undrawn rasterizer rfl).elim
      | dropProgram => exact ⟨rfl, beside.dropProgram⟩
      | clear => exact ⟨rfl, beside.clear⟩
      | clearError => exact ⟨rfl, idle { beside with } rfl rfl⟩

end Drawing.Beside

end Steps

end Quill
