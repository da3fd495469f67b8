import Quill.Proofs.Capture
import Quill.Proofs.Pieces

/-!
# What the surroundings give to a pattern

Inside a pattern every setting is written, whatever the context holds.  Of the contexts outside
it only the general opacity shows in what is written, because paints take it on.
-/

namespace Quill

namespace Buffer

variable {first second : Buffer} {layout : Layout}

/-- Two buffers at the same place of a line, under the same indentation. -/
structure SameLine (first second : Buffer) : Prop where
  column : first.column = second.column
  indent : first.indent = second.indent

theorem SameLine.extended (same : SameLine first second) (text : String) :
    ∃ added, Grows first (first.extended text) added ∧ Grows second (second.extended text) added ∧
      SameLine (first.extended text) (second.extended text) := by
  refine ⟨_, first.extended_grows text, ?_, ?_, same.indent⟩
  · rw [same.column, same.indent]
    exact second.extended_grows text
  · rw [Buffer.extended, Buffer.extended, same.column, same.indent]

theorem SameLine.wrote (same : SameLine first second) (piece : Piece) :
    ∃ added, Grows first (first.wrote layout piece) added ∧
      Grows second (second.wrote layout piece) added ∧
        SameLine (first.wrote layout piece) (second.wrote layout piece) := by
  cases piece with
  | plain text => exact same.extended text
  | wrapping text =>
      have breaks : first.breaksLine layout text = second.breaksLine layout text := by
        rw [breaksLine, breaksLine, same.column]
      simp only [Buffer.wrote, breaks]
      split
      · obtain ⟨lineBreak, grows, grows', broken⟩ := same.extended "\n"
        obtain ⟨added, further, further', written⟩ := broken.extended text
        exact ⟨lineBreak ++ added, grows.trans further, grows'.trans further', written⟩
      · exact same.extended text

/-- From the same place of a line on, pieces are written as the same text. -/
theorem SameLine.wroteEach (same : SameLine first second) (pieces : List Piece) :
    ∃ added, Grows first (pieces.foldl (Buffer.wrote layout) first) added ∧
      Grows second (pieces.foldl (Buffer.wrote layout) second) added ∧
        SameLine (pieces.foldl (Buffer.wrote layout) first)
          (pieces.foldl (Buffer.wrote layout) second) := by
  induction pieces generalizing first second with
  | nil => exact ⟨"", .refl first, .refl second, same⟩
  | cons piece rest ih =>
      obtain ⟨added, grows, grows', next⟩ := same.wrote piece
      obtain ⟨further, others, others', last⟩ := ih next
      exact ⟨added ++ further, grows.trans others, grows'.trans others', last⟩

/-- Behind a whole line a buffer stands at the start of the next. -/
theorem column_line (buffer : Buffer) (text : String) :
    (buffer.extended (text ++ "\n")).column = 0 := by
  have newline : "\n".toList = ['\n'] := rfl
  rw [extended, String.toList_append, newline, columnAfter, List.foldl_append]
  rfl

end Buffer

namespace ContextStack

variable {stack : ContextStack}

/-- The general opacities of all contexts, that of the innermost first. -/
def alphas (stack : ContextStack) : List UInt8 :=
  (stack.scopes ++ [stack.root]).map (·.alpha)

theorem length_alphas (stack : ContextStack) : stack.alphas.length = stack.depth := by
  simp [alphas, depth]

theorem alphas_eq_cons (stack : ContextStack) :
    stack.alphas = stack.current.alpha :: stack.alphas.tail := by
  rcases stack with ⟨root, scopes⟩
  cases scopes <;> rfl

/-- The depth of a stack that holds contexts of its own above those of another. -/
theorem depth_of_alphas {base : ContextStack} {alpha : UInt8} {own : List UInt8}
    (alphas : stack.alphas = alpha :: (own ++ base.alphas.tail)) :
    stack.depth = own.length + base.depth := by
  have positive : 0 < base.depth := Nat.succ_pos _
  have length := stack.length_alphas
  rw [alphas, List.length_cons, List.length_append, List.length_tail, base.length_alphas] at length
  omega

theorem alphas_push (stack : ContextStack) :
    stack.push.alphas = stack.current.alpha :: stack.alphas := rfl

theorem alphas_modify (stack : ContextStack) (change : Context → Context) :
    (stack.modify change).alphas = (change stack.current).alpha :: stack.alphas.tail := by
  rcases stack with ⟨root, scopes⟩
  cases scopes <;> rfl

theorem alphas_of_pop? {top : Context} {outer : ContextStack}
    (popped : stack.pop? = some (top, outer)) : outer.alphas = stack.alphas.tail := by
  rcases stack with ⟨root, scopes⟩
  cases scopes <;> cases popped
  rfl

end ContextStack

namespace Context

variable (context : Context)

@[simp] theorem alpha_setPaint (side : Side) (paint : Paint) :
    (context.setPaint side paint).alpha = context.alpha := by
  cases side <;> rfl

@[simp] theorem alpha_setMeasure (measure : Measure) (value : Float) :
    (context.setMeasure measure value).alpha = context.alpha := by
  cases measure <;> rfl

@[simp] theorem alpha_setLabel (label : Label) (text : String) :
    (context.setLabel label text).alpha = context.alpha := by
  cases label <;> rfl

@[simp] theorem alpha_setAccent (accent : Accent) (color : Rgba) :
    (context.setAccent accent color).alpha = context.alpha := by
  cases accent <;> rfl

@[simp] theorem alpha_setAntialias (smoothing : Smoothing) (enabled : Bool) :
    (context.setAntialias smoothing enabled).alpha = context.alpha := by
  cases smoothing <;> rfl

@[simp] theorem alpha_composeTransform (change : Transform) :
    (context.composeTransform change).alpha = context.alpha := rfl

end Context

theorem Canvas.artifacts_publish {canvas canvas' : Canvas}
    (same : canvas.artifacts = canvas'.artifacts) (geometry : GeometryKey) (id : String)
    (bounds : PatternBounds) (body : String) (offset offset' : Nat) :
    (canvas.publish geometry ⟨id, offset, bounds⟩ body).artifacts =
      (canvas'.publish geometry ⟨id, offset', bounds⟩ body).artifacts := by
  cases geometry <;> simp only [Canvas.publish, Canvas.setArtifact, same]

/-- Two changes of contexts that lead from the same general opacity to the same. -/
def SameAlpha (change change' : Context → Context) : Prop :=
  ∀ context context' : Context, context.alpha = context'.alpha →
    (change context).alpha = (change' context').alpha

theorem SameAlpha.of_kept {change change' : Context → Context}
    (kept : ∀ context, (change context).alpha = context.alpha)
    (kept' : ∀ context, (change' context).alpha = context.alpha) : SameAlpha change change' :=
  fun context context' same => (kept context).trans (same.trans (kept' context').symm)

/-- Changes that leave brackets alone and do the same but for attributes of contexts. -/
inductive Change.Akin : Change → Change → Prop
  | nothing : Akin .nothing .nothing
  | context {change change' : Context → Context} (same : SameAlpha change change') :
      Akin (.context change) (.context change')
  | path (state : Path.State) : Akin (.path state) (.path state)

/-- Plans that leave brackets alone, write the same text and do the same but for attributes of
contexts. -/
inductive Plan.Akin : Plan → Plan → Prop
  | refuse (failure : Failure) : Akin (.refuse failure) (.refuse failure)
  | keep : Akin .keep .keep
  | adjust {change change' : Context → Context} (same : SameAlpha change change') :
      Akin (.adjust change) (.adjust change')
  | write (pieces : List Piece) {change change' : Change} (akin : change.Akin change') :
      Akin (.write pieces change) (.write pieces change')

theorem Plan.checked_akin {α : Type} {argument : Except Failure α} {plan plan' : α → Plan}
    (akin : ∀ value, (plan value).Akin (plan' value)) :
    (Plan.checked argument plan).Akin (Plan.checked argument plan') := by
  cases argument with
  | error failure => exact .refuse failure
  | ok value => exact akin value

/-- Two drawings inside patterns, at the same place of a line, with the same general opacity and
the same of everything that is not an attribute of a context. -/
structure Drawing.Alike (first second : Drawing) : Prop where
  settings : first.settings = second.settings
  line : first.buffer.SameLine second.buffer
  alpha : first.context.alpha = second.context.alpha
  path : first.path = second.path
  artifacts : first.canvas.artifacts = second.canvas.artifacts
  clipPaths : first.clipPaths = second.clipPaths
  poisoned : first.poisoned = second.poisoned
  filtering : first.filtering = false
  filtering' : second.filtering = false

namespace Drawing.Alike

variable {first second : Drawing} {tools : Tools}

theorem update (alike : first.Alike second) {differs differs' : Bool} {text : String}
    {change change' : Context → Context} (same : SameAlpha change change') :
    (first.update differs text change).Akin (second.update differs' text change') := by
  simp only [Drawing.update, alike.filtering, alike.filtering', Bool.false_and]
  exact .write _ (.context same)

theorem updateSpelled (alike : first.Alike second) {differs differs' : Bool} {word : String}
    {spelling : Option String} {change change' : Context → Context}
    (same : SameAlpha change change') :
    (first.updateSpelled differs word spelling change).Akin
      (second.updateSpelled differs' word spelling change') := by
  simp only [Drawing.updateSpelled, alike.filtering, alike.filtering', Bool.false_and]
  cases spelling with
  | none => exact .adjust same
  | some text => exact .write _ (.context same)

theorem paint (alike : first.Alike second) (side : Side) (color : Rgba) :
    (first.paintPlan side color).Akin (second.paintPlan side color) := by
  simp only [paintPlan, alike.alpha]
  exact alike.update (.of_kept (by simp) (by simp))

theorem clipPath (alike : first.Alike second) (id : String) :
    (first.clipPathPlan id).Akin (second.clipPathPlan id) := by
  simp only [clipPathPlan, alike.clipPaths]
  split
  · exact alike.update (.of_kept (fun _ => rfl) fun _ => rfl)
  · exact .refuse _

theorem clipUnits (alike : first.Alike second) (units : ClipUnits) :
    (first.clipUnitsPlan units).Akin (second.clipUnitsPlan units) := by
  refine alike.update (.of_kept ?_ ?_) <;>
    (intro context; simp only; split <;> rfl)

theorem patternReference (alike : first.Alike second) (url : String) :
    first.patternReference url = second.patternReference url := by
  have published : ∀ key, first.canvas.artifact? key = second.canvas.artifact? key :=
    fun key => congrArg (·.get? key) alike.artifacts
  simp only [Drawing.patternReference, published]

/-- A setting is written in the same way, whatever the contexts hold. -/
theorem setting (alike : first.Alike second) (setting : Setting) :
    (setting.plan tools first).Akin (setting.plan tools second) := by
  cases setting with
  | paintName side name => exact Plan.checked_akin fun color => alike.paint side color
  | paint side color => exact alike.paint side color
  | paintPattern side url =>
      rw [Setting.plan, Setting.plan, alike.patternReference url]
      exact Plan.checked_akin fun id => alike.update (.of_kept (by simp) (by simp))
  | opacity value => exact alike.update fun _ _ _ => rfl
  | clipPath id => exact Plan.checked_akin fun id => alike.clipPath id
  | clipUnits units => exact alike.clipUnits units
  | bounds rectangle => exact .adjust (.of_kept (fun _ => rfl) fun _ => rfl)
  | label index text =>
      exact Plan.checked_akin fun text => alike.update (.of_kept (by simp) (by simp))
  | accentName accent name =>
      exact Plan.checked_akin fun color => alike.update (.of_kept (by simp) (by simp))
  | gravity anchor => exact alike.updateSpelled (.of_kept (fun _ => rfl) fun _ => rfl)
  | alignment side => exact alike.updateSpelled (.of_kept (fun _ => rfl) fun _ => rfl)
  | direction run => exact alike.updateSpelled (.of_kept (fun _ => rfl) fun _ => rfl)
  | _ => exact alike.update (.of_kept (by simp) (by simp))

/-- So is every other call that leaves brackets alone. -/
theorem plan? (alike : first.Alike second) {call : Call} (plain : call.Plain) {plan : Plan}
    (planned : call.plan? tools first = some plan) :
    ∃ plan', call.plan? tools second = some plan' ∧ plan.Akin plan' := by
  cases call with
  | instruct instruction =>
      cases planned
      refine ⟨_, rfl, ?_⟩
      cases instruction with
      | setting change => exact alike.setting change
      | motion move =>
          have akin : move.plan.Akin move.plan := by
            rw [Motion.plan]
            split
            · exact .keep
            · exact .write _ (.context (.of_kept (by simp) (by simp)))
          exact akin
      | shape figure => exact .write _ .nothing
      | path step =>
          have same : step.plan first = step.plan second := by
            simp only [Path.Step.plan, alike.path]
          rw [Instruction.plan, Instruction.plan, same]
          cases step <;> exact .write _ (.path _)
      | bracket edge => exact (plain edge rfl).elim
      | comment text => exact .write _ .nothing
  | accent kind color =>
      cases planned
      exact ⟨_, rfl, alike.update (.of_kept (by simp) (by simp))⟩
  | composite placement picture =>
      have same : (Call.composite placement picture).plan? tools first =
          (Call.composite placement picture).plan? tools second := by
        simp only [Call.plan?, alike.poisoned, alike.settings]
      rw [same] at planned
      refine ⟨plan, planned, ?_⟩
      rcases Call.composite_plan_cases planned with rfl | ⟨failure, -, rfl⟩ | ⟨encoded, rfl⟩
      · exact .refuse _
      · exact .refuse _
      · exact .write _ .nothing
  | render _ | dropProgram | clear | clearError => cases planned

end Drawing.Alike

end Quill
