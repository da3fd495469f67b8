import Quill.Proofs.Repeats

/-!
# What settings leave alone

A setting has fields of its own in the context in force.  A color takes the place of the paint with
its pattern, a pattern gives the color below it the general opacity, units relative to an object
move the transform, and every other setting has one field.  All other fields, all other contexts
and all else of the drawing stay as they are, whether the setting is written, left out or refused.
What is written is one line behind the program.
-/

namespace Quill

/-- The fields of a context: its attributes, and of a paint also the red, green and blue, the
opacity and the pattern. -/
inductive Field where
  | whole (kind : Attribute)
  | hue (side : Side)
  | opacity (side : Side)
  | pattern (side : Side)
  deriving DecidableEq

def Field.Value : Field → Type
  | .whole kind => kind.Value
  | .hue _ => UInt8 × UInt8 × UInt8
  | .opacity _ => UInt8
  | .pattern _ => Option String

def Context.field (context : Context) : (field : Field) → field.Value
  | .whole kind => context.value kind
  | .hue side =>
    let color := (context.paint side).color
    (color.r, color.g, color.b)
  | .opacity side => (context.paint side).color.a
  | .pattern side => (context.paint side).pattern

def Setting.target : Setting → Attribute
  | .paintName side _ | .paint side _ | .paintPattern side _ | .paintOpacity side _ => .paint side
  | .opacity _ => .alpha
  | .fillRule _ => .fillRule
  | .measure index _ => .measure index
  | .dashes _ => .dashes
  | .lineCap _ => .lineCap
  | .lineJoin _ => .lineJoin
  | .miterLimit _ => .miterLimit
  | .antialias smoothing _ => .antialias smoothing
  | .clipPath _ => .clipPath
  | .clipRule _ => .clipRule
  | .clipUnits _ => .clipUnits
  | .bounds _ => .bounds
  | .label index _ => .label index
  | .fontStyle _ => .fontStyle
  | .fontWeight _ => .fontWeight
  | .fontStretch _ => .fontStretch
  | .decoration _ => .decoration
  | .accentName accent _ => .accent accent
  | .gravity _ => .gravity
  | .alignment _ => .alignment
  | .direction _ => .direction

/-- The parts of a paint that a setting sets. -/
def Setting.parts : Setting → List Field
  | .paintName side _ | .paint side _ => [.hue side, .opacity side, .pattern side]
  | .paintPattern side _ => [.opacity side, .pattern side]
  | .paintOpacity side _ => [.opacity side]
  | _ => []

/-- The fields that a call sets.  Units relative to an object also move the transform. -/
def Call.own : Call → List Field
  | .instruct (.setting setting) => setting.target.touched.map .whole ++ setting.parts
  | .accent kind _ => [.whole (.accent kind)]
  | _ => []

/-- A drawing that another one led to by setting some fields of the context in force, with at most
one line behind its program. -/
structure Drawing.SetsOnly (drawing : Drawing) (own : List Field) (after : Drawing) : Prop where
  fields : ∀ field, field ∉ own → after.context.field field = drawing.context.field field
  outer : after.contexts.toList.tail = drawing.contexts.toList.tail
  grows : ∃ added, drawing.buffer.Grows after.buffer added
  written : after.buffer = drawing.buffer ∨
    ∃ line, after.buffer = drawing.buffer.extended (line ++ "\n")
  rest : after = { drawing with
    buffer := after.buffer, contexts := after.contexts
    poisoned := after.poisoned, lastError := after.lastError }

section Fields

variable {tools : Tools} {drawing : Drawing} {setting : Setting} {edit : Edit} {field : Field}
  {side : Side} {first second : Context}

/-- The fields of a context make up all of it. -/
theorem Context.eq_of_fields (same : ∀ field, first.field field = second.field field) :
    first = second := by
  have equal : ∀ kind, first.value kind = second.value kind := fun kind => same (.whole kind)
  cases first
  cases second
  rw [mk.injEq]
  exact ⟨equal (.paint .fill), equal .fillRule, equal (.paint .stroke),
    equal (.measure .strokeWidth), equal .dashes, equal (.measure .dashOffset), equal .lineCap,
    equal .lineJoin, equal .miterLimit, equal (.antialias .stroke), equal .alpha,
    equal (.label .font), equal (.label .fontFamily), equal (.measure .fontSize),
    equal .fontStyle, equal .fontWeight, equal .fontStretch, equal (.antialias .text),
    equal .decoration, equal (.accent .undercolor), equal (.accent .border),
    equal (.label .encoding), equal .gravity, equal .alignment, equal .direction,
    equal (.measure .kerning), equal (.measure .interline), equal (.measure .interword),
    equal .transform, equal .clipPath, equal .clipRule, equal .clipUnits, equal .bounds⟩

theorem Attribute.paint_mem_touched {kind : Attribute} :
    .paint side ∈ kind.touched ↔ kind = .paint side := by
  cases kind <;> simp [touched, eq_comm]

theorem Setting.edit?_target (edits : setting.edit? tools drawing = .ok edit) :
    edit.target = setting.target := by
  cases setting with
  | paintName side name | paintPattern side url | accentName accent name | label index text
  | clipPath id =>
      obtain ⟨given, -, rfl⟩ := exists_of_map_ok edits
      rfl
  | _ =>
      cases edits
      rfl

theorem Rgba.hue_couple (color : Rgba) (alpha : UInt8) :
    let coupled := color.couple alpha
    (coupled.r, coupled.g, coupled.b) = (color.r, color.g, color.b) := by
  rw [couple]
  split <;> rfl

/-- A setting keeps the parts that it does not set of the paint that it sets. -/
theorem Setting.edit?_part (edits : setting.edit? tools drawing = .ok edit)
    (own : setting.target = .paint side) (other : field ∉ setting.parts)
    (part : field = .hue side ∨ field = .opacity side ∨ field = .pattern side) :
    (edit.change drawing.context).field field = drawing.context.field field := by
  cases setting with
  | paintName given name | paint given color =>
      cases own
      simp only [parts, List.mem_cons, List.not_mem_nil, or_false] at other
      exact (other part).elim
  | paintPattern given url =>
      cases own
      obtain ⟨id, -, rfl⟩ := exists_of_map_ok edits
      rcases part with rfl | rfl | rfl
      · simp only [Context.field, Context.patternEdit, Context.paint_setPaint]
        exact Rgba.hue_couple _ _
      all_goals simp [parts] at other
  | paintOpacity given value =>
      cases own
      cases edits
      rcases part with rfl | rfl | rfl
      · simp only [Context.field, Context.paintOpacityEdit, Context.paint_setPaint]
        rfl
      · simp [parts] at other
      · simp only [Context.field, Context.paintOpacityEdit, Context.paint_setPaint]
        rfl
  | _ => cases own

/-- A setting keeps all fields that are not its own. -/
theorem Setting.edit?_field (edits : setting.edit? tools drawing = .ok edit)
    (other : field ∉ (Call.instruct (.setting setting)).own) :
    (edit.change drawing.context).field field = drawing.context.field field := by
  simp only [Call.own, List.mem_append, not_or] at other
  obtain ⟨unset, apart⟩ := other
  have whole : ∀ kind ∉ setting.target.touched,
      (edit.change drawing.context).value kind = drawing.context.value kind := by
    intro kind untouched
    rw [← edit?_target edits] at untouched
    exact edit?_frame drawing.context edits untouched
  have paint : ∀ side, setting.target ≠ .paint side →
      (edit.change drawing.context).paint side = drawing.context.paint side :=
    fun side elsewhere => whole (.paint side) (mt Attribute.paint_mem_touched.mp elsewhere)
  cases field with
  | whole kind => exact whole kind fun touched => unset (List.mem_map_of_mem touched)
  | hue side =>
      by_cases own : setting.target = .paint side
      · exact edit?_part edits own apart (.inl rfl)
      · exact congrArg (fun held : Paint => (held.color.r, held.color.g, held.color.b))
          (paint side own)
  | opacity side =>
      by_cases own : setting.target = .paint side
      · exact edit?_part edits own apart (.inr (.inl rfl))
      · exact congrArg (fun held : Paint => held.color.a) (paint side own)
  | pattern side =>
      by_cases own : setting.target = .paint side
      · exact edit?_part edits own apart (.inr (.inr rfl))
      · exact congrArg Paint.pattern (paint side own)

theorem Context.accentEdit_field (context : Context) {accent : Accent} {color : Rgba}
    (other : field ≠ .whole (.accent accent)) :
    ((context.accentEdit accent color).change context).field field = context.field field := by
  cases field with
  | whole kind => exact context.value_setAccent (fun same => other (congrArg _ same)) color
  | hue side | opacity side | pattern side => cases accent <;> rfl

end Fields

section Calls

variable {tools : Tools} {drawing after : Drawing} {call : Call} {edit : Edit} {own : List Field}
  {outcome : Outcome}

theorem Drawing.SetsOnly.record (drawing : Drawing) (own : List Field) (failure : Failure) :
    drawing.SetsOnly own (drawing.record failure) :=
  ⟨fun _ _ => rfl, rfl, ⟨"", .refl _⟩, .inl rfl, rfl⟩

theorem Drawing.SetsOnly.refl (drawing : Drawing) (own : List Field) :
    drawing.SetsOnly own drawing :=
  ⟨fun _ _ => rfl, rfl, ⟨"", .refl _⟩, .inl rfl, rfl⟩

/-- A change of the context in force that keeps the other fields, behind at most one line. -/
theorem Drawing.SetsOnly.changed {change : Context → Context} {buffer : Buffer}
    (kept : ∀ field, field ∉ own →
      (change drawing.context).field field = drawing.context.field field)
    (written : buffer = drawing.buffer ∨
      ∃ line, buffer = drawing.buffer.extended (line ++ "\n")) :
    drawing.SetsOnly own
      { drawing with buffer := buffer, contexts := drawing.contexts.modify change } := by
  refine ⟨fun field other => ?_, ?_, ?_, written, rfl⟩
  · rw [Drawing.context, ContextStack.current_modify]
    exact kept field other
  · rw [ContextStack.toList_modify, List.tail_cons]
  · rcases written with rfl | ⟨line, rfl⟩
    · exact ⟨"", .refl _⟩
    · exact ⟨_, drawing.buffer.extended_grows (line ++ "\n")⟩

/-- An edit fails and is remembered, or it changes nothing but what it is meant to change. -/
theorem Edit.run_setsOnly
    (kept : ∀ field, field ∉ own →
      (edit.change drawing.context).field field = drawing.context.field field)
    (ran : (edit.plan drawing).run drawing = (after, outcome)) :
    drawing.SetsOnly own after ∧
      ((∃ failure, outcome = .failed failure ∧ after = drawing.record failure) ∨
        outcome = .done ∧ after.poisoned = drawing.poisoned ∧
          after.lastError = drawing.lastError) := by
  have inner : (edit.plan drawing).Inner := Drawing.updateSpelled_inner ..
  cases outcome with
  | aborted promise => exact (Plan.run_not_aborted ran).elim
  | failed failure =>
      have indented : ∀ text change, edit.plan drawing = .close text change →
          0 < drawing.buffer.indent := by
        intro text change planned
        rw [planned] at inner
        exact inner.elim
      cases Plan.run_failed indented ran
      exact ⟨.record drawing own failure, .inl ⟨failure, rfl, rfl⟩⟩
  | done =>
      have done := Plan.run_done ran
      cases planned : edit.plan drawing with
      | refuse failure =>
          rw [planned] at done
          cases done
      | close line change =>
          rw [planned] at inner
          exact inner.elim
      | keep =>
          rw [planned] at done
          cases done
          exact ⟨.refl drawing own, .inr ⟨rfl, rfl, rfl⟩⟩
      | adjust change =>
          obtain ⟨-, rfl⟩ := plan_adjust planned
          rw [planned] at done
          cases done
          exact ⟨.changed kept (.inl rfl), .inr ⟨rfl, rfl, rfl⟩⟩
      | write pieces change =>
          obtain ⟨spelling, -, rfl, rfl⟩ := plan_write planned
          rw [planned] at done
          cases done
          exact ⟨.changed kept (.inr ⟨_, rfl⟩), .inr ⟨rfl, rfl, rfl⟩⟩

/-- A call that sets an attribute changes fields of its own in the context in force, and nothing
else: all other fields, all other contexts and all else of the drawing stay as they are, and the
program grows by nothing or by one line.  This holds whether the call is written, left out or
refused; a call that fails changes no field at all, but the failure is remembered. -/
theorem settings_change_own_fields (sets : call.Sets)
    (called : drawing.call tools call = (after, outcome)) :
    drawing.SetsOnly call.own after ∧
      ((∃ failure, outcome = .failed failure ∧ after = drawing.record failure) ∨
        outcome = .done ∧ after.poisoned = drawing.poisoned ∧
          after.lastError = drawing.lastError) := by
  cases sets with
  | accent accent color =>
      rw [Drawing.call, Drawing.accentPlan_eq_edit] at called
      refine Edit.run_setsOnly (fun field other => ?_) called
      exact drawing.context.accentEdit_field (List.ne_of_not_mem_cons other)
  | setting setting =>
      cases edits : setting.edit? tools drawing with
      | error failure =>
          rw [Setting.call_of_refused edits] at called
          cases called
          exact ⟨.record drawing _ failure, .inl ⟨failure, rfl, rfl⟩⟩
      | ok edit =>
          rw [Setting.call_of_edit edits] at called
          exact Edit.run_setsOnly (fun field other => Setting.edit?_field edits other) called

/-- A pattern inside a scope, over a red fill that takes on an opacity of one half. -/
theorem settings_change_own_fields_below_pattern :
    let publish : List Call := [.instruct (.bracket (.openPattern "p" 0 0 8 8)),
      .instruct (.bracket .closePattern)]
    let red : Call := .instruct (.setting (.paint .fill ⟨255, 0, 0, 255⟩))
    let half : Call := .instruct (.setting (.opacity 0.5))
    let scope : Call := .instruct (.bracket .openScope)
    let pattern : Call := .instruct (.setting (.paintPattern .fill "#p"))
    let drawing := (Drawing.start {} ⟨64, 64, .empty⟩).calls {} (publish ++ [red, half, scope])
    let after := (drawing.call {} pattern).1
    after.context.fill = ⟨⟨255, 0, 0, 128⟩, some "p"⟩ ∧
      drawing.SetsOnly [.whole (.paint .fill), .opacity .fill, .pattern .fill] after := by
  intro publish red half scope pattern drawing after
  have called : drawing.call {} pattern = (after, .done) := Drawing.call_of_done (by decide +kernel)
  exact ⟨by decide +kernel, (settings_change_own_fields (.setting _) called).1⟩

end Calls

end Quill
