import Quill.Proofs.Edits

/-!
# What settings look at

Whether a setting is left out, and what it writes, depends on few attributes of the context in
force: mostly on the one that it sets, and for paints on the general opacity too.  Two drawings
whose contexts agree on those attributes edit them alike.
-/

namespace Quill

/-- The attributes that a setting looks at. -/
def Setting.inputs : Setting → List Attribute
  | .paintName side _ | .paint side _ | .paintPattern side _ => [.paint side, .alpha]
  | .paintOpacity side _ => [.paint side]
  | .opacity _ => [.alpha]
  | .fillRule _ => [.fillRule]
  | .measure index _ => [.measure index]
  | .dashes _ => [.dashes]
  | .lineCap _ => [.lineCap]
  | .lineJoin _ => [.lineJoin]
  | .miterLimit _ => [.miterLimit]
  | .antialias smoothing _ => [.antialias smoothing]
  | .clipPath _ => [.clipPath]
  | .clipRule _ => [.clipRule]
  | .clipUnits _ => [.clipUnits]
  | .bounds _ => []
  | .label index _ => [.label index]
  | .fontStyle _ => [.fontStyle]
  | .fontWeight _ => [.fontWeight]
  | .fontStretch _ => [.fontStretch]
  | .decoration _ => [.decoration]
  | .accentName accent _ => [.accent accent]
  | .gravity _ => [.gravity]
  | .alignment _ => [.alignment]
  | .direction _ => [.direction]

/-- The attributes that a call looks at to decide what it writes. -/
def Call.inputs : Call → List Attribute
  | .instruct (.setting setting) => setting.inputs
  | .accent kind _ => [.accent kind]
  | _ => []

/-- Two contexts that have the same values of some attributes. -/
def Context.AgreeOn (kept : Attribute → Prop) (first second : Context) : Prop :=
  ∀ kind, kept kind → first.value kind = second.value kind

/-- Two edits that are written alike and give their attribute the same value. -/
structure Edit.Same (edit edit' : Edit) : Prop where
  target : edit.target = edit'.target
  differs : edit.differs = edit'.differs
  word : edit.word = edit'.word
  spelling : edit.spelling = edit'.spelling
  value : ∀ context context' : Context,
    (edit.change context).value edit.target = (edit'.change context').value edit.target

/-- Two settings that are both refused, or edit alike. -/
inductive Edit.Match : Except Failure Edit → Except Failure Edit → Prop
  | refused (failure : Failure) : Match (.error failure) (.error failure)
  | same {edit edit' : Edit} (same : edit.Same edit') : Match (.ok edit) (.ok edit')

section Settings

variable {tools : Tools} {first second : Drawing}

theorem Edit.Match.map {α : Type} (argument : Except Failure α) {make make' : α → Edit}
    (same : ∀ given, (make given).Same (make' given)) :
    Match (argument.map make) (argument.map make') := by
  cases argument with
  | error failure => exact .refused failure
  | ok given => exact .same (same given)

section Edits

variable {context context' : Context}

theorem Edit.Same.of_eq {edit edit' : Edit} (equal : edit = edit')
    (sets : ∀ changed changed', (edit.change changed).value edit.target =
      (edit.change changed').value edit.target) : edit.Same edit' := by
  subst equal
  exact ⟨rfl, rfl, rfl, rfl, sets⟩

theorem Context.paintEdit_same {side : Side} (paint : context.paint side = context'.paint side)
    (alpha : context.alpha = context'.alpha) (color : Rgba) :
    (context.paintEdit side color).Same (context'.paintEdit side color) := by
  refine .of_eq ?_ fun _ _ => ?_
  · simp only [paintEdit, paint, alpha]
  · cases side <;> rfl

theorem Context.patternEdit_same {side : Side} (paint : context.paint side = context'.paint side)
    (alpha : context.alpha = context'.alpha) (id : String) :
    (context.patternEdit side id).Same (context'.patternEdit side id) := by
  refine .of_eq ?_ fun _ _ => ?_
  · simp only [patternEdit, paint, alpha]
  · cases side <;> rfl

theorem Context.paintOpacityEdit_same {side : Side}
    (paint : context.paint side = context'.paint side) (opacity : Float) :
    (context.paintOpacityEdit side opacity).Same (context'.paintOpacityEdit side opacity) := by
  refine .of_eq ?_ fun _ _ => ?_
  · simp only [paintOpacityEdit, paint]
  · cases side <;> rfl

theorem Context.accentEdit_same {accent : Accent}
    (held : context.accent accent = context'.accent accent) (color : Rgba) :
    (context.accentEdit accent color).Same (context'.accentEdit accent color) := by
  refine ⟨rfl, congrArg (· != color) held, rfl, rfl, ?_⟩
  intro changed changed'
  cases accent <;> rfl

theorem Context.labelEdit_same {label : Label}
    (held : context.label label = context'.label label) (text : String) :
    (context.labelEdit label text).Same (context'.labelEdit label text) := by
  refine ⟨rfl, congrArg (· != some text) held, rfl, rfl, ?_⟩
  intro changed changed'
  cases label <;> rfl

theorem Context.clipPathEdit_same (held : context.clipPath = context'.clipPath) (id : String) :
    (context.clipPathEdit id).Same (context'.clipPathEdit id) :=
  ⟨rfl, congrArg (· != some id) held, rfl, rfl, fun _ _ => rfl⟩

/-- Where the transform goes depends on the bounds of the object, but nothing else does. -/
theorem Context.clipUnitsEdit_same (held : context.clipUnits = context'.clipUnits)
    (units : ClipUnits) : (context.clipUnitsEdit units).Same (context'.clipUnitsEdit units) := by
  refine ⟨rfl, congrArg (· != units) held, rfl, rfl, ?_⟩
  have written : ∀ context changed : Context,
      ((context.clipUnitsEdit units).change changed).value .clipUnits = units := by
    intro context changed
    simp only [clipUnitsEdit]
    split <;> rfl
  intro changed changed'
  exact (written context changed).trans (written context' changed').symm

end Edits

/-- Two drawings whose contexts agree on what a setting looks at make the same edit of it. -/
theorem Setting.edit?_match (setting : Setting)
    (agree : ∀ kind ∈ setting.inputs, first.context.value kind = second.context.value kind)
    (clipPaths : first.clipPaths = second.clipPaths)
    (reference : ∀ side url, setting = .paintPattern side url →
      first.patternReference url = second.patternReference url) :
    Edit.Match (setting.edit? tools first) (setting.edit? tools second) := by
  cases setting with
  | paintName side name =>
      have paint := agree _ List.mem_cons_self
      have alpha := agree _ (List.mem_cons_of_mem _ List.mem_cons_self)
      exact .map _ (Context.paintEdit_same paint alpha)
  | paint side color =>
      have paint := agree _ List.mem_cons_self
      have alpha := agree _ (List.mem_cons_of_mem _ List.mem_cons_self)
      exact .same (Context.paintEdit_same paint alpha color)
  | paintPattern side url =>
      have paint := agree _ List.mem_cons_self
      have alpha := agree _ (List.mem_cons_of_mem _ List.mem_cons_self)
      rw [edit?, edit?, reference side url rfl]
      exact .map _ (Context.patternEdit_same paint alpha)
  | paintOpacity side value =>
      exact .same (Context.paintOpacityEdit_same (agree _ List.mem_cons_self) value)
  | accentName accent name =>
      exact .map _ (Context.accentEdit_same (agree _ List.mem_cons_self))
  | label index text => exact .map _ (Context.labelEdit_same (agree _ List.mem_cons_self))
  | clipPath id =>
      have finished : first.clipReference id = second.clipReference id := by
        simp only [Drawing.clipReference, clipPaths]
      rw [edit?, edit?, finished]
      exact .map _ (Context.clipPathEdit_same (agree _ List.mem_cons_self))
  | clipUnits units =>
      exact .same (Context.clipUnitsEdit_same (agree _ List.mem_cons_self) units)
  | bounds rectangle => exact .same ⟨rfl, rfl, rfl, rfl, fun _ _ => rfl⟩
  | measure index value =>
      have held := agree _ List.mem_cons_self
      refine .same ⟨rfl, congrArg (lengthsDiffer · value) held, rfl, rfl, ?_⟩
      intro changed changed'
      cases index <;> rfl
  | dashes lengths =>
      have held := agree _ List.mem_cons_self
      exact .same ⟨rfl, congrArg (dashesDiffer · lengths) held, rfl, rfl, fun _ _ => rfl⟩
  | antialias smoothing enabled =>
      have held := agree _ List.mem_cons_self
      refine .same ⟨rfl, congrArg (· != enabled) held, rfl, rfl, ?_⟩
      intro changed changed'
      cases smoothing <;> rfl
  | opacity value =>
      have held := agree _ List.mem_cons_self
      exact .same ⟨rfl, congrArg (· != alphaOfOpacity value) held, rfl, rfl, fun _ _ => rfl⟩
  | fillRule given | clipRule given | lineCap given | lineJoin given | miterLimit given
  | fontStyle given | fontWeight given | fontStretch given | decoration given | gravity given
  | alignment given | direction given =>
      have held := agree _ List.mem_cons_self
      exact .same ⟨rfl, congrArg (· != given) held, rfl, rfl, fun _ _ => rfl⟩

theorem Attribute.eq_of_touched {kind target : Attribute} (touched : kind ∈ target.touched) :
    kind = target ∨ kind = .transform := by
  cases target with
  | clipUnits =>
      rw [Attribute.touched, List.mem_cons, List.mem_singleton] at touched
      exact touched
  | _ => exact .inl (List.mem_singleton.mp touched)

/-- Edits that are made alike keep contexts in agreement, except on the transform. -/
theorem Edit.Same.agreeOn {edit edit' : Edit} (same : edit.Same edit')
    {kept : Attribute → Prop} (untransformed : ¬ kept .transform) {context context' : Context}
    (frame : ∀ kind ∉ edit.target.touched, (edit.change context).value kind = context.value kind)
    (frame' : ∀ kind ∉ edit.target.touched,
      (edit'.change context').value kind = context'.value kind)
    (agree : context.AgreeOn kept context') :
    (edit.change context).AgreeOn kept (edit'.change context') := by
  intro kind keeps
  by_cases touched : kind ∈ edit.target.touched
  · rcases Attribute.eq_of_touched touched with rfl | rfl
    · exact same.value context context'
    · exact (untransformed keeps).elim
  · rw [frame kind touched, frame' kind touched]
    exact agree kind keeps

end Settings

end Quill
