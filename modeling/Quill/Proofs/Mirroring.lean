import Quill.Proofs.Repeats

/-!
# Fill and stroke as mirror images

Whatever sets the fill does the same to the stroke of a drawing in which the two paints have changed
places.  It is refused for the same reason, left out in the same contexts, and leads to the mirror
image of the drawing.  The line that it writes differs in its first word only.
-/

namespace Quill

def Side.other : Side → Side
  | .fill => .stroke
  | .stroke => .fill

/-- The context in which the paints have changed places. -/
def Context.mirror (context : Context) : Context :=
  { context with fill := context.stroke, stroke := context.fill }

/-- The stack of contexts in which the paints have changed places. -/
def ContextStack.mirror (stack : ContextStack) : ContextStack :=
  ⟨stack.root.mirror, stack.scopes.map Context.mirror⟩

/-- The drawing in which the paints of all contexts have changed places. -/
def Drawing.mirror (drawing : Drawing) : Drawing :=
  { drawing with contexts := drawing.contexts.mirror }

/-- The paint that a setting sets, if any. -/
def Setting.side? : Setting → Option Side
  | .paintName side _ | .paint side _ | .paintPattern side _ | .paintOpacity side _ => some side
  | _ => none

/-- The setting that does to the other paint what a setting does to one. -/
def Setting.mirror : Setting → Setting
  | .paintName side name => .paintName side.other name
  | .paint side color => .paint side.other color
  | .paintPattern side url => .paintPattern side.other url
  | .paintOpacity side value => .paintOpacity side.other value
  | setting => setting

/-- Two programs that grew out of one by nothing, or by lines that differ in the name of the paint
that they start with. -/
inductive Respelled (side : Side) (before : String) : String → String → Prop
  | nothing : Respelled side before before before
  | line (count : Nat) (rest : String) :
      Respelled side before (before ++ spaces count ++ (side.word ++ rest))
        (before ++ spaces count ++ (side.other.word ++ rest))

/-- Two edits that do the same to the two paints. -/
structure Edit.Mirrors (side : Side) (edit image : Edit) : Prop where
  differs : image.differs = edit.differs
  word : ∃ ending, edit.word = side.word ++ ending ∧ image.word = side.other.word ++ ending
  spelling : ∃ spelling, edit.spelling = some spelling ∧ image.spelling = some spelling
  change : ∀ context, image.change context.mirror = (edit.change context).mirror

/-- Two settings that are refused alike, or do the same to the two paints. -/
inductive Edit.MirrorMatch (side : Side) : Except Failure Edit → Except Failure Edit → Prop
  | refused (failure : Failure) : MirrorMatch side (.error failure) (.error failure)
  | edits {edit image : Edit} (mirrors : edit.Mirrors side image) :
      MirrorMatch side (.ok edit) (.ok image)

section Images

variable (context : Context) (stack : ContextStack) (drawing : Drawing)

@[simp]
theorem Context.paint_mirror (side : Side) :
    context.mirror.paint side.other = context.paint side := by
  cases side <;> rfl

@[simp]
theorem Context.setPaint_mirror (side : Side) (paint : Paint) :
    context.mirror.setPaint side.other paint = (context.setPaint side paint).mirror := by
  cases side <;> rfl

theorem ContextStack.current_mirror : stack.mirror.current = stack.current.mirror := by
  rcases stack with ⟨root, scopes⟩
  cases scopes <;> rfl

theorem ContextStack.modify_mirror {change image : Context → Context}
    (mirrors : ∀ context, image context.mirror = (change context).mirror) :
    stack.mirror.modify image = (stack.modify change).mirror := by
  rcases stack with ⟨root, scopes⟩
  cases scopes with
  | nil => exact congrArg (fun root => ContextStack.mk root []) (mirrors root)
  | cons top outer =>
      exact congrArg (fun top => ContextStack.mk root.mirror (top :: outer.map Context.mirror))
        (mirrors top)

theorem Drawing.context_mirror : drawing.mirror.context = drawing.context.mirror :=
  drawing.contexts.current_mirror

end Images

section Edits

variable {tools : Tools} {drawing : Drawing} {setting : Setting} {side : Side}
  (context : Context)

theorem Context.paintEdit_mirrors (side : Side) (color : Rgba) :
    (context.paintEdit side color).Mirrors side
      (context.mirror.paintEdit side.other color) := by
  refine ⟨?_, ⟨"", ?_, ?_⟩, ⟨_, rfl, rfl⟩, fun changed => changed.setPaint_mirror side _⟩
  · rw [paintEdit, paintEdit, paint_mirror]
    rfl
  · exact String.append_empty.symm
  · exact String.append_empty.symm

theorem Context.patternEdit_mirrors (side : Side) (id : String) :
    (context.patternEdit side id).Mirrors side
      (context.mirror.patternEdit side.other id) := by
  refine ⟨?_, ⟨"", ?_, ?_⟩, ⟨_, rfl, rfl⟩, fun changed => ?_⟩
  · rw [patternEdit, patternEdit, paint_mirror]
  · exact String.append_empty.symm
  · exact String.append_empty.symm
  · rw [patternEdit, patternEdit, paint_mirror]
    exact changed.setPaint_mirror side _

theorem Context.paintOpacityEdit_mirrors (side : Side) (opacity : Float) :
    (context.paintOpacityEdit side opacity).Mirrors side
      (context.mirror.paintOpacityEdit side.other opacity) := by
  refine ⟨?_, ⟨"-opacity", rfl, rfl⟩, ⟨_, rfl, rfl⟩, fun changed => ?_⟩
  · rw [paintOpacityEdit, paintOpacityEdit, paint_mirror]
  · rw [paintOpacityEdit, paintOpacityEdit, paint_mirror]
    exact changed.setPaint_mirror side _

theorem Edit.MirrorMatch.map {α : Type} (argument : Except Failure α) {make image : α → Edit}
    (mirrors : ∀ given, (make given).Mirrors side (image given)) :
    MirrorMatch side (argument.map make) (argument.map image) := by
  cases argument with
  | error failure => exact .refused failure
  | ok given => exact .edits (mirrors given)

theorem Setting.edit?_mirror (paints : setting.side? = some side) :
    Edit.MirrorMatch side (setting.edit? tools drawing)
      (setting.mirror.edit? tools drawing.mirror) := by
  cases setting with
  | paintName given name =>
      cases paints
      rw [mirror]
      simp only [edit?, drawing.context_mirror]
      exact .map _ (drawing.context.paintEdit_mirrors side)
  | paint given color =>
      cases paints
      rw [mirror]
      simp only [edit?, drawing.context_mirror]
      exact .edits (drawing.context.paintEdit_mirrors side color)
  | paintPattern given url =>
      cases paints
      rw [mirror]
      simp only [edit?, drawing.context_mirror]
      exact .map (drawing.patternReference url) (drawing.context.patternEdit_mirrors side)
  | paintOpacity given value =>
      cases paints
      rw [mirror]
      simp only [edit?, drawing.context_mirror]
      exact .edits (drawing.context.paintOpacityEdit_mirrors side value)
  | _ => cases paints

end Edits

section Calls

variable {tools : Tools} {drawing after : Drawing} {setting : Setting} {side : Side}
  {edit image : Edit} {outcome : Outcome}

/-- Two runs that end in the same way, lead to mirror images but for their programs, and append the
same but for the name of the paint. -/
structure Drawing.MirrorEnds (drawing : Drawing) (side : Side)
    (ended reflected : Drawing × Outcome) : Prop where
  outcome : reflected.2 = ended.2
  state : reflected.1 = { ended.1.mirror with
    buffer := { ended.1.buffer with text := reflected.1.program } }
  program : Respelled side drawing.program ended.1.program reflected.1.program

theorem Drawing.MirrorEnds.fail (drawing : Drawing) (side : Side) (failure : Failure) :
    drawing.MirrorEnds side (drawing.fail failure) (drawing.mirror.fail failure) :=
  ⟨rfl, rfl, .nothing⟩

/-- A line that is written behind a program with the name of one paint and of the other. -/
theorem Buffer.respelled_extended (buffer : Buffer) (side : Side) (rest : String) :
    Respelled side buffer.text (buffer.extended (side.word ++ rest)).text
      (buffer.extended (side.other.word ++ rest)).text :=
  .line (buffer.indent - buffer.column) rest

/-- Two lines leave the same buffer behind but for its text. -/
theorem Buffer.extended_apart (buffer : Buffer) (first second : String) :
    buffer.extended (second ++ "\n") =
      { buffer.extended (first ++ "\n") with
        text := (buffer.extended (second ++ "\n")).text } := by
  have ended : (buffer.extended (second ++ "\n")).column =
      (buffer.extended (first ++ "\n")).column := by
    rw [column_line, column_line]
  exact congrArg (fun column => Buffer.mk _ column buffer.indent) ended

theorem Edit.Mirrors.run (mirrors : edit.Mirrors side image)
    (unlimited : drawing.layout.limit = none) :
    drawing.MirrorEnds side ((edit.plan drawing).run drawing)
      ((image.plan drawing.mirror).run drawing.mirror) := by
  obtain ⟨spelling, spelled, same⟩ := mirrors.spelling
  obtain ⟨ending, word, other⟩ := mirrors.word
  have filtering : drawing.mirror.filtering = drawing.filtering := rfl
  simp only [Edit.plan, Drawing.updateSpelled, mirrors.differs, filtering, spelled, same]
  split
  · exact ⟨rfl, rfl, .nothing⟩
  cases poisoned : drawing.poisoned with
  | true =>
      have image : drawing.mirror.poisoned = true := poisoned
      simp only [Plan.line, Plan.run, poisoned, image, if_true]
      exact .fail drawing side .poisoned
  | false =>
      have usable : drawing.mirror.poisoned = false := poisoned
      have roomy : drawing.mirror.layout.limit = none := unlimited
      rw [Plan.run_line unlimited poisoned, Plan.run_line roomy usable]
      refine ⟨rfl, ?_, ?_⟩
      · have contexts : drawing.contexts.mirror.modify image.change =
            (drawing.contexts.modify edit.change).mirror :=
          drawing.contexts.modify_mirror mirrors.change
        have buffer := drawing.buffer.extended_apart (edit.word ++ " " ++ spelling)
          (image.word ++ " " ++ spelling)
        exact congrArg₂
          (fun buffer contexts => { drawing with buffer := buffer, contexts := contexts })
          buffer contexts
      · have respelled := drawing.buffer.respelled_extended side
          (ending ++ (" " ++ (spelling ++ "\n")))
        simp only [Change.apply, Drawing.program, word, other, String.append_assoc]
        exact respelled

/-- Setting a paint of a drawing and setting the other paint of its mirror image end in the same
way and lead to mirror images, except that their programs differ in the name of the paint. -/
theorem paints_mirror_each_other (unlimited : drawing.layout.limit = none)
    (paints : setting.side? = some side) :
    drawing.MirrorEnds side (drawing.call tools (.instruct (.setting setting)))
      (drawing.mirror.call tools (.instruct (.setting setting.mirror))) := by
  have alike : Edit.MirrorMatch side (setting.edit? tools drawing)
      (setting.mirror.edit? tools drawing.mirror) := Setting.edit?_mirror paints
  generalize edits : setting.edit? tools drawing = own at alike
  generalize reflected : setting.mirror.edit? tools drawing.mirror = other at alike
  cases alike with
  | refused failure =>
      rw [Setting.call_of_refused edits, Setting.call_of_refused reflected]
      exact .fail drawing side failure
  | edits mirrors =>
      rw [Setting.call_of_edit edits, Setting.call_of_edit reflected]
      exact mirrors.run unlimited

/-- The opacity of a red fill in a scope, and of a stroke that is as red. -/
theorem paints_mirror_each_other_in_scope :
    let red : Call := .instruct (.setting (.paint .fill ⟨255, 0, 0, 255⟩))
    let drawing := (Drawing.start {} ⟨64, 64, .empty⟩).calls {}
      [red, .instruct (.bracket .openScope)]
    let half (side : Side) : Call := .instruct (.setting (.paintOpacity side 0.5))
    let ended := drawing.call {} (half .fill)
    let reflected := drawing.mirror.call {} (half .stroke)
    ended.1.program = drawing.program ++ " fill-opacity 0.5\n" ∧
      reflected.1.program = drawing.program ++ " stroke-opacity 0.5\n" ∧
        drawing.MirrorEnds .fill ended reflected := by
  intro red drawing half ended reflected
  exact ⟨by decide +kernel, by decide +kernel,
    @paints_mirror_each_other {} drawing (.paintOpacity .fill 0.5) .fill rfl rfl⟩

end Calls

end Quill
