import Quill.Proofs.Plan

/-!
# Edits

Every setting, once its argument is checked, is an edit: it names an attribute, says whether the
attribute has another value so far, how the new value is written and what the context is behind
it.  An edit writes no attribute but its own, except that clip units move the transform as well.
-/

namespace Quill

inductive Attribute where
  | paint (side : Side)
  | alpha
  | fillRule
  | measure (measure : Measure)
  | dashes
  | lineCap
  | lineJoin
  | miterLimit
  | antialias (smoothing : Smoothing)
  | clipPath
  | clipRule
  | clipUnits
  | bounds
  | transform
  | label (label : Label)
  | fontStyle
  | fontWeight
  | fontStretch
  | decoration
  | accent (accent : Accent)
  | gravity
  | alignment
  | direction
  deriving DecidableEq

namespace Attribute

def Value : Attribute → Type
  | .paint _ => Paint
  | .alpha => UInt8
  | .fillRule | .clipRule => FillRule
  | .measure _ => Float
  | .dashes => List Float
  | .lineCap => LineCap
  | .lineJoin => LineJoin
  | .miterLimit | .fontWeight => UInt32
  | .antialias _ => Bool
  | .clipPath | .label _ => Option String
  | .clipUnits => ClipUnits
  | .bounds => Rectangle
  | .transform => Transform
  | .fontStyle => FontStyle
  | .fontStretch => FontStretch
  | .decoration => Decoration
  | .accent _ => Rgba
  | .gravity => Gravity
  | .alignment => Alignment
  | .direction => Direction

/-- The attributes that an edit of an attribute writes. -/
def touched : Attribute → List Attribute
  | .clipUnits => [.clipUnits, .transform]
  | kind => [kind]

end Attribute

def Context.value (context : Context) : (kind : Attribute) → kind.Value
  | .paint side => context.paint side
  | .alpha => context.alpha
  | .fillRule => context.fillRule
  | .measure index => context.measure index
  | .dashes => context.dashes
  | .lineCap => context.lineCap
  | .lineJoin => context.lineJoin
  | .miterLimit => context.miterLimit
  | .antialias smoothing => context.antialias smoothing
  | .clipPath => context.clipPath
  | .clipRule => context.clipRule
  | .clipUnits => context.clipUnits
  | .bounds => context.bounds
  | .transform => context.transform
  | .label index => context.label index
  | .fontStyle => context.fontStyle
  | .fontWeight => context.fontWeight
  | .fontStretch => context.fontStretch
  | .decoration => context.decoration
  | .accent kind => context.accent kind
  | .gravity => context.gravity
  | .alignment => context.alignment
  | .direction => context.direction

/-- What a setting does once its argument is checked.  A value without a spelling is not written;
nor is one that does not differ from that in force, while such values are left out. -/
structure Edit where
  target : Attribute
  differs : Bool
  word : String
  spelling : Option String
  change : Context → Context

def Edit.plan (drawing : Drawing) (edit : Edit) : Plan :=
  drawing.updateSpelled edit.differs edit.word edit.spelling edit.change

namespace Context

variable (context : Context)

def paintEdit (side : Side) (color : Rgba) : Edit where
  target := .paint side
  differs := (context.paint side).color != color.couple context.alpha ||
    (context.paint side).pattern.isSome
  word := side.word
  spelling := some (quotedColor (color.couple context.alpha))
  change := (·.setPaint side ⟨color.couple context.alpha, none⟩)

def patternEdit (side : Side) (id : String) : Edit where
  target := .paint side
  differs := (context.paint side).pattern != some id
  word := side.word
  spelling := some ("url(#" ++ id ++ ")")
  change := (·.setPaint side ⟨(context.paint side).color.couple context.alpha, some id⟩)

def paintOpacityEdit (side : Side) (opacity : Float) : Edit where
  target := .paint side
  differs := (context.paint side).color.a != alphaOfOpacity opacity
  word := side.word ++ "-opacity"
  spelling := some (Number.coordinate opacity)
  change := (·.setPaint side { context.paint side with
    color := (context.paint side).color.withAlpha (alphaOfOpacity opacity) })

def accentEdit (accent : Accent) (color : Rgba) : Edit where
  target := .accent accent
  differs := context.accent accent != color
  word := accent.word
  spelling := some (quotedColor color)
  change := (·.setAccent accent color)

def labelEdit (label : Label) (text : String) : Edit where
  target := .label label
  differs := context.label label != some text
  word := label.word
  spelling := some (Text.Quoted.literal text)
  change := (·.setLabel label text)

def clipPathEdit (id : String) : Edit where
  target := .clipPath
  differs := context.clipPath != some id
  word := "clip-path"
  spelling := some ("url(#" ++ id ++ ")")
  change := ({ · with clipPath := some id })

def clipUnitsEdit (units : ClipUnits) : Edit where
  target := .clipUnits
  differs := context.clipUnits != units
  word := "clip-units"
  spelling := some units.token
  change changed :=
    let moved := { changed with clipUnits := units }
    if units = .objectBoundingBox ∧ 0 < context.bounds.area then
      moved.composeTransform context.bounds.unitMap
    else moved

end Context

/-- The finished clip path that a name refers to. -/
def Drawing.clipReference (drawing : Drawing) (id : String) : Except Failure String := do
  let id ← require "clip_path" id
  if drawing.clipPaths.contains id then .ok id else .error (.undefinedReference id)

theorem Drawing.require_ok {what value given : String} (accepted : require what value = .ok given) :
    given = value := by
  rw [require] at accepted
  split at accepted
  · cases accepted
  · exact (Except.ok.inj accepted).symm

theorem Drawing.clipReference_ok {drawing : Drawing} {name id : String}
    (found : drawing.clipReference name = .ok id) :
    id = name ∧ drawing.clipPaths.contains id = true := by
  simp only [clipReference, bind, Except.bind] at found
  split at found
  · cases found
  · rename_i given accepted
    split at found
    · cases found
      exact ⟨require_ok accepted, by assumption⟩
    · cases found

/-- The edit of a setting, if its argument is accepted. -/
def Setting.edit? (tools : Tools) (drawing : Drawing) : Setting → Except Failure Edit
  | .paintName side name =>
    (Drawing.resolveColor tools name).map (drawing.context.paintEdit side)
  | .paint side color => .ok (drawing.context.paintEdit side color)
  | .paintPattern side url =>
    (drawing.patternReference url).map (drawing.context.patternEdit side)
  | .paintOpacity side value => .ok (drawing.context.paintOpacityEdit side value)
  | .opacity value =>
    .ok ⟨.alpha, drawing.context.alpha != alphaOfOpacity value, "opacity",
      some (Number.coordinate value), ({ · with alpha := alphaOfOpacity value })⟩
  | .fillRule rule =>
    .ok ⟨.fillRule, drawing.context.fillRule != rule, "fill-rule", some rule.token,
      ({ · with fillRule := rule })⟩
  | .measure index value =>
    .ok ⟨.measure index, lengthsDiffer (drawing.context.measure index) value, index.word,
      some (Number.coordinate value), (·.setMeasure index value)⟩
  | .dashes lengths =>
    .ok ⟨.dashes, dashesDiffer drawing.context.dashes lengths, "stroke-dasharray",
      some (dashText lengths), ({ · with dashes := lengths })⟩
  | .lineCap cap =>
    .ok ⟨.lineCap, drawing.context.lineCap != cap, "stroke-linecap", some cap.token,
      ({ · with lineCap := cap })⟩
  | .lineJoin join =>
    .ok ⟨.lineJoin, drawing.context.lineJoin != join, "stroke-linejoin", some join.token,
      ({ · with lineJoin := join })⟩
  | .miterLimit limit =>
    .ok ⟨.miterLimit, drawing.context.miterLimit != limit, "stroke-miterlimit",
      some (toString limit.toNat), ({ · with miterLimit := limit })⟩
  | .antialias smoothing enabled =>
    .ok ⟨.antialias smoothing, drawing.context.antialias smoothing != enabled, smoothing.word,
      some (Path.flag enabled), (·.setAntialias smoothing enabled)⟩
  | .clipPath id => (drawing.clipReference id).map drawing.context.clipPathEdit
  | .clipRule rule =>
    .ok ⟨.clipRule, drawing.context.clipRule != rule, "clip-rule", some rule.token,
      ({ · with clipRule := rule })⟩
  | .clipUnits units => .ok (drawing.context.clipUnitsEdit units)
  | .bounds rectangle => .ok ⟨.bounds, true, "", none, ({ · with bounds := rectangle })⟩
  | .label index text =>
    (Drawing.require index.argument text).map (drawing.context.labelEdit index)
  | .fontStyle style =>
    .ok ⟨.fontStyle, drawing.context.fontStyle != style, "font-style", some style.token,
      ({ · with fontStyle := style })⟩
  | .fontWeight weight =>
    .ok ⟨.fontWeight, drawing.context.fontWeight != weight, "font-weight",
      some (toString weight.toNat), ({ · with fontWeight := weight })⟩
  | .fontStretch stretch =>
    .ok ⟨.fontStretch, drawing.context.fontStretch != stretch, "font-stretch",
      some stretch.token, ({ · with fontStretch := stretch })⟩
  | .decoration mark =>
    .ok ⟨.decoration, drawing.context.decoration != mark, "decorate", some mark.token,
      ({ · with decoration := mark })⟩
  | .accentName accent name =>
    (Drawing.resolveColor tools name).map (drawing.context.accentEdit accent)
  | .gravity anchor =>
    .ok ⟨.gravity, drawing.context.gravity != anchor, "gravity", anchor.token?,
      ({ · with gravity := anchor })⟩
  | .alignment side =>
    .ok ⟨.alignment, drawing.context.alignment != side, "text-align", side.token?,
      ({ · with alignment := side })⟩
  | .direction run =>
    .ok ⟨.direction, drawing.context.direction != run, "direction", run.token?,
      ({ · with direction := run })⟩

section Plans

variable {tools : Tools} {drawing : Drawing}

theorem Plan.checked_map {α β : Type} (argument : Except Failure α) (make : α → β)
    (plan : β → Plan) :
    Plan.checked (argument.map make) plan =
      Plan.checked argument fun value => plan (make value) := by
  cases argument <;> rfl

theorem reference_line (word id : String) :
    word ++ " url(#" ++ id ++ ")" = word ++ " " ++ ("url(#" ++ id ++ ")") := by
  have opening : " url(#" = " " ++ "url(#" := rfl
  rw [opening]
  simp only [String.append_assoc]

/-- A setting is refused, or it is carried out as an edit. -/
theorem Setting.plan_eq_edit (setting : Setting) :
    setting.plan tools drawing = Plan.checked (setting.edit? tools drawing) (·.plan drawing) := by
  cases setting with
  | paintName side name =>
      rw [edit?, Plan.checked_map]
      rfl
  | accentName accent name =>
      rw [edit?, Plan.checked_map]
      rfl
  | label index text =>
      rw [edit?, Plan.checked_map]
      rfl
  | paintPattern side url =>
      rw [edit?, Plan.checked_map]
      simp only [plan, Drawing.patternPlan, reference_line]
      rfl
  | paintOpacity side value =>
      have opening : "-opacity " = "-opacity" ++ " " := rfl
      simp only [plan, Drawing.paintOpacityPlan, opening, ← String.append_assoc]
      rfl
  | clipPath id =>
      rw [edit?, Plan.checked_map]
      simp only [plan, Drawing.clipPathPlan, Drawing.clipReference]
      cases Drawing.require "clip_path" id with
      | error failure => rfl
      | ok id =>
          have line : "clip-path url(#" ++ id ++ ")" =
              "clip-path" ++ " " ++ ("url(#" ++ id ++ ")") := reference_line "clip-path" id
          simp only [Plan.checked, bind, Except.bind, line]
          split <;> rfl
  | bounds rectangle =>
      simp only [plan, edit?, Plan.checked, Edit.plan, Drawing.updateSpelled, Bool.not_true,
        Bool.and_false, Bool.false_eq_true, if_false]
  | _ => rfl

theorem Drawing.accentPlan_eq_edit (drawing : Drawing) (accent : Accent) (color : Rgba) :
    drawing.accentPlan accent color = (drawing.context.accentEdit accent color).plan drawing :=
  rfl

/-- What an edit writes is one line. -/
theorem Edit.plan_write {edit : Edit} {pieces : List Piece} {change : Change}
    (planned : edit.plan drawing = .write pieces change) :
    ∃ spelling, edit.spelling = some spelling ∧
      pieces = [.plain (edit.word ++ " " ++ spelling ++ "\n")] ∧ change = .context edit.change := by
  simp only [plan, Drawing.updateSpelled] at planned
  split at planned
  · cases planned
  split at planned
  · rename_i spelling spelled
    cases planned
    exact ⟨spelling, spelled, rfl, rfl⟩
  · cases planned

theorem Edit.plan_adjust {edit : Edit} {change : Context → Context}
    (planned : edit.plan drawing = .adjust change) :
    edit.spelling = none ∧ change = edit.change := by
  simp only [plan, Drawing.updateSpelled] at planned
  split at planned
  · cases planned
  split at planned
  · cases planned
  · cases planned
    exact ⟨by assumption, rfl⟩

end Plans

/-- A plan that changes the context in force, whether or not it writes. -/
inductive Plan.Updates (change : Context → Context) : Plan → Prop
  | adjust : Updates change (.adjust change)
  | write (pieces : List Piece) : Updates change (.write pieces (.context change))

section Updates

variable {tools : Tools} {drawing : Drawing} {call : Call} {plan : Plan}
  {change : Context → Context}

theorem Edit.change_of_updates {edit : Edit} (updates : (edit.plan drawing).Updates change) :
    change = edit.change := by
  cases planned : edit.plan drawing with
  | adjust other =>
      rw [planned] at updates
      cases updates
      exact (plan_adjust planned).2
  | write pieces other =>
      rw [planned] at updates
      obtain ⟨spelling, -, -, rfl⟩ := plan_write planned
      cases updates
      rfl
  | refuse failure | keep | close line other =>
      rw [planned] at updates
      cases updates

/-- The context in force is changed by edits and by motions. -/
theorem Call.updates_cases (planned : call.plan? tools drawing = some plan)
    (updates : plan.Updates change) :
    (∃ setting edit, call = .instruct (.setting setting) ∧
        setting.edit? tools drawing = .ok edit ∧ plan = edit.plan drawing) ∨
      (∃ accent color, call = .accent accent color ∧
        plan = (drawing.context.accentEdit accent color).plan drawing) ∨
      ∃ motion, call = .instruct (.motion motion) ∧ plan = motion.plan := by
  rcases Call.plan?_cases planned with ⟨plain, -⟩ | ⟨bracket, rfl, rfl⟩
  · cases call with
    | instruct instruction =>
        cases planned
        cases instruction with
        | setting setting =>
            rw [Instruction.plan, Setting.plan_eq_edit] at updates
            cases edits : setting.edit? tools drawing with
            | error failure =>
                rw [edits] at updates
                cases updates
            | ok edit =>
                refine .inl ⟨setting, edit, rfl, edits, ?_⟩
                rw [Instruction.plan, Setting.plan_eq_edit, edits]
                rfl
        | motion motion => exact .inr (.inr ⟨motion, rfl, rfl⟩)
        | bracket bracket => exact (plain bracket rfl).elim
        | path step => cases step <;> cases updates
        | shape figure | comment text => cases updates
    | accent accent color =>
        cases planned
        exact .inr (.inl ⟨accent, color, rfl, rfl⟩)
    | composite placement picture =>
        rcases composite_plan_cases planned with rfl | ⟨_, -, rfl⟩ | ⟨_, rfl⟩ <;> cases updates
    | render _ | dropProgram | clear | clearError => cases planned
  · rcases bracket.plan_cases drawing with ⟨_, other⟩ | ⟨_, _, other⟩ | ⟨_, _, other⟩
    · rw [other] at updates
      cases updates
    · obtain ⟨text, -, opens⟩ := Bracket.opens_of_plan other
      rw [other] at updates
      cases updates
      cases opens
    · rw [other] at updates
      cases updates

end Updates

section Frames

variable (context : Context) {kind : Attribute}

theorem Context.paint_setPaint (side : Side) (paint : Paint) :
    (context.setPaint side paint).paint side = paint := by
  cases side <;> rfl

theorem Context.paint_setPaint_other {side other : Side} (apart : other ≠ side) (paint : Paint) :
    (context.setPaint side paint).paint other = context.paint other := by
  cases side <;> cases other <;> first | rfl | exact (apart rfl).elim

theorem Context.value_setPaint {side : Side} (other : kind ≠ .paint side) (paint : Paint) :
    (context.setPaint side paint).value kind = context.value kind := by
  cases side <;> cases kind <;> first
    | rfl
    | (rename_i side; cases side <;> first | rfl | exact (other rfl).elim)

theorem Context.value_setMeasure {index : Measure} (other : kind ≠ .measure index)
    (value : Float) : (context.setMeasure index value).value kind = context.value kind := by
  cases index <;> cases kind <;> first
    | rfl
    | (rename_i index; cases index <;> first | rfl | exact (other rfl).elim)

theorem Context.value_setLabel {index : Label} (other : kind ≠ .label index) (text : String) :
    (context.setLabel index text).value kind = context.value kind := by
  cases index <;> cases kind <;> first
    | rfl
    | (rename_i index; cases index <;> first | rfl | exact (other rfl).elim)

theorem Context.value_setAccent {accent : Accent} (other : kind ≠ .accent accent)
    (color : Rgba) : (context.setAccent accent color).value kind = context.value kind := by
  cases accent <;> cases kind <;> first
    | rfl
    | (rename_i accent; cases accent <;> first | rfl | exact (other rfl).elim)

theorem Context.value_setAntialias {smoothing : Smoothing} (other : kind ≠ .antialias smoothing)
    (enabled : Bool) :
    (context.setAntialias smoothing enabled).value kind = context.value kind := by
  cases smoothing <;> cases kind <;> first
    | rfl
    | (rename_i smoothing; cases smoothing <;> first | rfl | exact (other rfl).elim)

theorem Context.value_clipUnitsEdit {units : ClipUnits}
    (other : kind ∉ Attribute.clipUnits.touched) (changed : Context) :
    ((context.clipUnitsEdit units).change changed).value kind = changed.value kind := by
  simp only [clipUnitsEdit]
  split
  · cases kind with
    | clipUnits | transform => exact (other (by decide)).elim
    | _ => rfl
  · cases kind with
    | clipUnits => exact (other (by decide)).elim
    | _ => rfl

theorem exists_of_map_ok {α β : Type} {argument : Except Failure α} {make : α → β} {value : β}
    (mapped : argument.map make = .ok value) :
    ∃ given, argument = .ok given ∧ make given = value := by
  cases argument with
  | error failure => cases mapped
  | ok given => exact ⟨given, rfl, Except.ok.inj mapped⟩

/-- An edit keeps every attribute that it does not touch. -/
theorem Setting.edit?_frame {tools : Tools} {drawing : Drawing} {setting : Setting} {edit : Edit}
    (edits : setting.edit? tools drawing = .ok edit) (other : kind ∉ edit.target.touched) :
    (edit.change context).value kind = context.value kind := by
  cases setting with
  | paintName side name =>
      obtain ⟨color, -, rfl⟩ := exists_of_map_ok edits
      exact context.value_setPaint (List.ne_of_not_mem_cons other) _
  | paintPattern side url =>
      obtain ⟨id, -, rfl⟩ := exists_of_map_ok edits
      exact context.value_setPaint (List.ne_of_not_mem_cons other) _
  | accentName accent name =>
      obtain ⟨color, -, rfl⟩ := exists_of_map_ok edits
      exact context.value_setAccent (List.ne_of_not_mem_cons other) _
  | label index text =>
      obtain ⟨text, -, rfl⟩ := exists_of_map_ok edits
      exact context.value_setLabel (List.ne_of_not_mem_cons other) _
  | clipPath id =>
      obtain ⟨id, -, rfl⟩ := exists_of_map_ok edits
      cases kind with
      | clipPath => exact (other List.mem_cons_self).elim
      | _ => rfl
  | paint side color | paintOpacity side opacity =>
      cases edits
      exact context.value_setPaint (List.ne_of_not_mem_cons other) _
  | measure index value =>
      cases edits
      exact context.value_setMeasure (List.ne_of_not_mem_cons other) _
  | antialias smoothing enabled =>
      cases edits
      exact context.value_setAntialias (List.ne_of_not_mem_cons other) _
  | clipUnits units =>
      cases edits
      exact drawing.context.value_clipUnitsEdit other context
  | _ =>
      cases edits
      cases kind <;> first | rfl | exact (other List.mem_cons_self).elim

end Frames

end Quill
