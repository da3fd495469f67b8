import Quill.Proofs.Ambient
import Quill.Proofs.DoubleRange
import Quill.Proofs.Exhausted

/-!
# Repeated settings

A setting that was made is in force: the same setting is accepted again, and what it stores does
not differ from what it stored before.  This needs one fact about doubles, that the difference of
a double and itself is zero or undefined, so that not even an infinite length differs from
itself.  While settings in force are left out, a setting made twice is therefore the same as one
made once.  Otherwise it is written again, and it stores what is stored already, except that
units relative to an object move the transform once more.
-/

namespace Quill

section Differences

open Number Float.Model

theorem Number.sub_self (x : Float) :
    x - x = packed (.zero .positive) ∨ x - x = packed .notANumber := by
  rw [sub_eq]
  cases (Reading.of x).unpacked with
  | notANumber => exact .inr rfl
  | infinity sign =>
      refine .inr ?_
      cases sign <;> rfl
  | zero sign =>
      refine .inl ?_
      cases sign <;> rfl
  | finite sign significand exponent positive =>
      refine .inl ?_
      simp only [UnpackedFloat.sub, Int.sub_self]
      rfl

theorem lengthsDiffer_self (x : Float) : lengthsDiffer x x = false := by
  rw [lengthsDiffer]
  rcases Number.sub_self x with zero | undefined
  · rw [zero]
    decide +kernel
  · rw [undefined]
    decide +kernel

theorem dashesDiffer_self (lengths : List Float) : dashesDiffer lengths lengths = false := by
  have same : ∀ pair ∈ lengths.zip lengths, pair.1 = pair.2 := by
    induction lengths with
    | nil => exact fun pair member => by cases member
    | cons first rest ih => exact List.forall_mem_cons.mpr ⟨rfl, ih⟩
  rw [dashesDiffer, bne_self_eq_false, Bool.false_or, List.any_eq_false]
  rintro ⟨first, second⟩ member
  cases same _ member
  rw [Bool.not_eq_true]
  exact lengthsDiffer_self first

end Differences

/-- A call that sets an attribute. -/
inductive Call.Sets : Call → Prop
  | setting (setting : Setting) : Sets (.instruct (.setting setting))
  | accent (accent : Accent) (color : Rgba) : Sets (.accent accent color)

/-- What a setting adds to a context when it is made once more: units relative to an object put
the map of the bounds in front of the transform again, and nothing else adds anything. -/
def Setting.refold (context : Context) : Setting → Context
  | .clipUnits .objectBoundingBox =>
    if 0 < context.bounds.area then context.composeTransform context.bounds.unitMap else context
  | _ => context

/-- What a call adds to a context when it is made once more. -/
def Call.refold (call : Call) (context : Context) : Context :=
  match call with
  | .instruct (.setting setting) => setting.refold context
  | _ => context

/-- A call that sets units relative to an object, which has an area in the context. -/
def Call.Folds (call : Call) (context : Context) : Prop :=
  call = .instruct (.setting (.clipUnits .objectBoundingBox)) ∧ 0 < context.bounds.area

/-- An edit that does not differ from the context, and leads to a given one if it is made
nevertheless.  An edit that always differs writes nothing and changes nothing. -/
structure Edit.Repeats (edit : Edit) (context added : Context) : Prop where
  inForce : edit.differs = false ∨ edit.spelling = none ∧ added = context
  change : edit.change context = added

section Again

variable {tools : Tools} {drawing after : Drawing} {setting : Setting} {edit : Edit}
  (context : Context)

theorem Rgba.couple_couple (color : Rgba) (alpha : UInt8) :
    (color.couple alpha).couple alpha = color.couple alpha := by
  unfold couple
  split
  · rfl
  · split <;> rfl

theorem Context.setPaint_setPaint (side : Side) (first second : Paint) :
    (context.setPaint side first).setPaint side second = context.setPaint side second := by
  cases side <;> rfl

theorem Drawing.clipReference_congr (clipPaths : after.clipPaths = drawing.clipPaths)
    (id : String) : after.clipReference id = drawing.clipReference id := by
  rw [clipReference, clipPaths]
  rfl

theorem Context.paintEdit_repeats (side : Side) (color : Rgba) :
    let after := (context.paintEdit side color).change context
    (after.paintEdit side color).Repeats after after := by
  intro after
  have held : after.paint side = ⟨color.couple context.alpha, none⟩ :=
    context.paint_setPaint side _
  have alpha : after.alpha = context.alpha := context.alpha_setPaint side _
  constructor
  · simp [paintEdit, held, alpha]
  · simp only [paintEdit, alpha]
    exact context.setPaint_setPaint side _ _

theorem Context.patternEdit_repeats (side : Side) (id : String) :
    let after := (context.patternEdit side id).change context
    (after.patternEdit side id).Repeats after after := by
  intro after
  have held : after.paint side = ⟨(context.paint side).color.couple context.alpha, some id⟩ :=
    context.paint_setPaint side _
  have alpha : after.alpha = context.alpha := context.alpha_setPaint side _
  constructor
  · simp [patternEdit, held]
  · simp only [patternEdit, held, alpha, Rgba.couple_couple]
    exact context.setPaint_setPaint side _ _

theorem Context.paintOpacityEdit_repeats (side : Side) (opacity : Float) :
    let after := (context.paintOpacityEdit side opacity).change context
    (after.paintOpacityEdit side opacity).Repeats after after := by
  intro after
  have held : after.paint side = { context.paint side with
      color := (context.paint side).color.withAlpha (alphaOfOpacity opacity) } :=
    context.paint_setPaint side _
  constructor
  · simp [paintOpacityEdit, held, Rgba.withAlpha]
  · simp only [paintOpacityEdit, held]
    exact context.setPaint_setPaint side _ _

theorem Context.accentEdit_repeats (accent : Accent) (color : Rgba) :
    let after := (context.accentEdit accent color).change context
    (after.accentEdit accent color).Repeats after after := by
  cases accent <;> exact ⟨.inl (bne_self_eq_false _), rfl⟩

theorem Context.labelEdit_repeats (label : Label) (text : String) :
    let after := (context.labelEdit label text).change context
    (after.labelEdit label text).Repeats after after := by
  cases label <;> exact ⟨.inl (bne_self_eq_false _), rfl⟩

theorem Context.clipPathEdit_repeats (id : String) :
    let after := (context.clipPathEdit id).change context
    (after.clipPathEdit id).Repeats after after :=
  ⟨.inl (bne_self_eq_false _), rfl⟩

theorem Context.clipUnitsEdit_repeats (units : ClipUnits) :
    let after := (context.clipUnitsEdit units).change context
    (after.clipUnitsEdit units).Repeats after ((Setting.clipUnits units).refold after) := by
  intro after
  have held : after.clipUnits = units := by
    simp only [after, clipUnitsEdit]
    split <;> rfl
  have same : { after with clipUnits := units } = after := by rw [← held]
  constructor
  · simp [clipUnitsEdit, held]
  · simp only [clipUnitsEdit, same]
    cases units <;> simp [Setting.refold]

theorem Setting.call_of_edit (edits : setting.edit? tools drawing = .ok edit) :
    drawing.call tools (.instruct (.setting setting)) = (edit.plan drawing).run drawing := by
  rw [Drawing.call, Instruction.plan, plan_eq_edit, edits]
  rfl

theorem Setting.call_of_refused {failure : Failure}
    (refused : setting.edit? tools drawing = .error failure) :
    drawing.call tools (.instruct (.setting setting)) = drawing.fail failure := by
  rw [Drawing.call, Instruction.plan, plan_eq_edit, refused]
  rfl

/-- Whether a setting is refused does not depend on the context. -/
theorem Setting.edit?_refused {failure : Failure}
    (refused : setting.edit? tools drawing = .error failure)
    (canvas : after.canvas = drawing.canvas) (clipPaths : after.clipPaths = drawing.clipPaths) :
    setting.edit? tools after = .error failure := by
  have map_refused : ∀ {α β : Type} {argument : Except Failure α} {make : α → β} (other : α → β),
      argument.map make = .error failure → argument.map other = .error failure := by
    intro α β argument make other mapped
    cases argument with
    | error failure =>
        cases mapped
        rfl
    | ok value => cases mapped
  cases setting with
  | paintPattern side url =>
      have same : after.patternReference url = drawing.patternReference url :=
        Drawing.patternReference_congr fun _ _ => by rw [canvas]
      rw [edit?, same]
      exact map_refused _ refused
  | clipPath id =>
      rw [edit?, Drawing.clipReference_congr clipPaths]
      exact map_refused _ refused
  | paintName side name | accentName accent name | label index text => exact map_refused _ refused
  | _ => cases refused

/-- Once a setting was made, it is accepted again, and it does not differ any more. -/
theorem Setting.edit?_again (edits : setting.edit? tools drawing = .ok edit)
    (context : after.context = edit.change drawing.context)
    (canvas : after.canvas = drawing.canvas) (clipPaths : after.clipPaths = drawing.clipPaths) :
    ∃ again, setting.edit? tools after = .ok again ∧
      again.Repeats after.context (setting.refold after.context) := by
  cases setting with
  | paintName side name =>
      obtain ⟨color, resolved, rfl⟩ := exists_of_map_ok edits
      refine ⟨_, congrArg (Except.map (after.context.paintEdit side)) resolved, ?_⟩
      rw [context]
      exact drawing.context.paintEdit_repeats side color
  | accentName accent name =>
      obtain ⟨color, resolved, rfl⟩ := exists_of_map_ok edits
      refine ⟨_, congrArg (Except.map (after.context.accentEdit accent)) resolved, ?_⟩
      rw [context]
      exact drawing.context.accentEdit_repeats accent color
  | label index text =>
      obtain ⟨text, accepted, rfl⟩ := exists_of_map_ok edits
      refine ⟨_, congrArg (Except.map (after.context.labelEdit index)) accepted, ?_⟩
      rw [context]
      exact drawing.context.labelEdit_repeats index text
  | paintPattern side url =>
      obtain ⟨id, found, rfl⟩ := exists_of_map_ok edits
      have same : after.patternReference url = drawing.patternReference url :=
        Drawing.patternReference_congr fun _ _ => by rw [canvas]
      refine ⟨_, congrArg (Except.map (after.context.patternEdit side)) (same.trans found), ?_⟩
      rw [context]
      exact drawing.context.patternEdit_repeats side id
  | clipPath id =>
      obtain ⟨id, found, rfl⟩ := exists_of_map_ok edits
      have same := Drawing.clipReference_congr clipPaths
      refine ⟨_, congrArg (Except.map after.context.clipPathEdit) ((same _).trans found), ?_⟩
      rw [context]
      exact drawing.context.clipPathEdit_repeats id
  | paint side color =>
      cases edits
      refine ⟨_, rfl, ?_⟩
      rw [context]
      exact drawing.context.paintEdit_repeats side color
  | paintOpacity side opacity =>
      cases edits
      refine ⟨_, rfl, ?_⟩
      rw [context]
      exact drawing.context.paintOpacityEdit_repeats side opacity
  | clipUnits units =>
      cases edits
      refine ⟨_, rfl, ?_⟩
      rw [context]
      exact drawing.context.clipUnitsEdit_repeats units
  | measure index value =>
      cases edits
      refine ⟨_, rfl, ?_⟩
      rw [context]
      cases index <;> exact ⟨.inl (lengthsDiffer_self value), rfl⟩
  | dashes lengths =>
      cases edits
      refine ⟨_, rfl, ?_⟩
      rw [context]
      exact ⟨.inl (dashesDiffer_self lengths), rfl⟩
  | antialias smoothing enabled =>
      cases edits
      refine ⟨_, rfl, ?_⟩
      rw [context]
      cases smoothing <;> exact ⟨.inl (bne_self_eq_false _), rfl⟩
  | bounds rectangle =>
      cases edits
      refine ⟨_, rfl, ?_⟩
      rw [context]
      exact ⟨.inr ⟨rfl, rfl⟩, rfl⟩
  | _ =>
      cases edits
      refine ⟨_, rfl, ?_⟩
      rw [context]
      exact ⟨.inl (bne_self_eq_false _), rfl⟩

end Again

section Calls

variable {tools : Tools} {drawing after : Drawing} {call : Call} {edit : Edit}

/-- An edit that is carried out is left out, because it is in force, or it changes the context. -/
theorem Edit.run_done (done : (edit.plan drawing).run drawing = (after, .done)) :
    (after = drawing ∧ drawing.filtering = true ∧ edit.differs = false) ∨
      ∃ buffer, after = { drawing with
        buffer := buffer, contexts := drawing.contexts.modify edit.change } := by
  have done := Plan.run_done done
  simp only [plan, Drawing.updateSpelled] at done
  split at done
  · rename_i elided
    rw [Bool.and_eq_true, Bool.not_eq_true'] at elided
    cases done
    exact .inl ⟨rfl, elided⟩
  · split at done
    · cases done with
      | write usable => exact .inr ⟨_, rfl⟩
    · cases done with
      | adjust change => exact .inr ⟨_, rfl⟩

theorem Edit.run_kept (filtered : drawing.filtering = true) (inForce : edit.differs = false) :
    (edit.plan drawing).run drawing = (drawing, .done) := by
  simp only [plan, Drawing.updateSpelled, filtered, inForce]
  rfl

/-- While settings in force are left out, an edit that repeats an earlier one does nothing. -/
theorem Edit.Repeats.run_filtered {added : Context}
    (repeats : edit.Repeats drawing.context added) (filtered : drawing.filtering = true) :
    (edit.plan drawing).run drawing = (drawing, .done) := by
  rcases repeats.inForce with inForce | ⟨unspelled, nothing⟩
  · exact run_kept filtered inForce
  · have same : drawing.contexts.modify edit.change = drawing.contexts :=
      ContextStack.modify_of_same (repeats.change.trans nothing)
    cases differs : edit.differs with
    | false => exact run_kept filtered differs
    | true =>
        simp only [plan, Drawing.updateSpelled, differs, unspelled, Bool.not_true, Bool.and_false,
          Bool.false_eq_true, if_false, Plan.run, same]

/-- An edit changes the context if it differs, and while every setting is written whether or not it
does. -/
theorem Edit.run_changing (edit : Edit)
    (changing : drawing.filtering = false ∨ edit.differs = true)
    (usable : drawing.poisoned = false) (unlimited : drawing.layout.limit = none) :
    ∃ buffer, (edit.plan drawing).run drawing = ({ drawing with
      buffer := buffer, contexts := drawing.contexts.modify edit.change }, .done) := by
  have written : (drawing.filtering && !edit.differs) = false := by
    rcases changing with unfiltered | differs
    · rw [unfiltered, Bool.false_and]
    · rw [differs, Bool.not_true, Bool.and_false]
  cases spelled : edit.spelling with
  | none =>
      have planned : edit.plan drawing = .adjust edit.change := by
        simp [plan, Drawing.updateSpelled, written, spelled]
      exact ⟨_, congrArg (Plan.run drawing) planned⟩
  | some spelling =>
      have planned : edit.plan drawing =
          .line (edit.word ++ " " ++ spelling) (.context edit.change) := by
        simp [plan, Drawing.updateSpelled, written, spelled]
      exact ⟨_, (congrArg (Plan.run drawing) planned).trans (Plan.run_line unlimited usable)⟩

theorem Drawing.call_of_done (done : (drawing.call tools call).2 = .done) :
    drawing.call tools call = ((drawing.call tools call).1, .done) :=
  Prod.ext rfl done

/-- A call that sets an attribute is refused for its argument, whatever the context, or it is
carried out as an edit, which it repeats in the context that the edit leads to. -/
theorem Call.Sets.edits (sets : call.Sets) (tools : Tools) (drawing : Drawing) :
    (∃ failure, call.refold = id ∧ ∀ later : Drawing,
        later.canvas = drawing.canvas → later.clipPaths = drawing.clipPaths →
          later.call tools call = later.fail failure) ∨
      ∃ edit : Edit, drawing.call tools call = (edit.plan drawing).run drawing ∧
        ∀ later : Drawing, later.context = edit.change drawing.context →
          later.canvas = drawing.canvas → later.clipPaths = drawing.clipPaths →
            ∃ again : Edit, later.call tools call = (again.plan later).run later ∧
              again.Repeats later.context (call.refold later.context) := by
  cases sets with
  | accent accent color =>
      refine .inr ⟨drawing.context.accentEdit accent color, rfl, ?_⟩
      intro later context _ _
      refine ⟨later.context.accentEdit accent color, rfl, ?_⟩
      rw [context]
      exact drawing.context.accentEdit_repeats accent color
  | setting setting =>
      cases edits : setting.edit? tools drawing with
      | error failure =>
          refine .inl ⟨failure, ?_, ?_⟩
          · cases setting <;> first | rfl | cases edits
          · intro later canvas clipPaths
            exact Setting.call_of_refused (Setting.edit?_refused edits canvas clipPaths)
      | ok edit =>
          refine .inr ⟨edit, Setting.call_of_edit edits, ?_⟩
          intro later context canvas clipPaths
          obtain ⟨again, editsAgain, repeats⟩ := Setting.edit?_again edits context canvas clipPaths
          exact ⟨again, Setting.call_of_edit editsAgain, repeats⟩

/-- Setting an attribute is idempotent while settings in force are left out, whatever is set,
doubles that are infinite or undefined included.  If the call is done, then the same call once
more is done too, writes nothing and changes nothing. -/
theorem settings_are_idempotent (sets : call.Sets) (filtered : drawing.filtering = true)
    (done : drawing.call tools call = (after, .done)) :
    after.call tools call = (after, .done) := by
  rcases sets.edits tools drawing with ⟨failure, -, refused⟩ | ⟨edit, edits, again⟩
  · rw [refused drawing rfl rfl] at done
    cases done
  rcases Edit.run_done (edits.symm.trans done) with ⟨rfl, -, -⟩ | ⟨buffer, rfl⟩
  · exact done
  · obtain ⟨repeated, called, repeats⟩ :=
      again { drawing with buffer := buffer, contexts := drawing.contexts.modify edit.change }
        (drawing.contexts.current_modify edit.change) rfl rfl
    rw [called]
    exact repeats.run_filtered filtered

/-- A dash list with an infinite length, which is written once. -/
theorem settings_are_idempotent_for_infinite_dash :
    let call : Call := .instruct (.setting (.dashes [1 / 0, 1]))
    let drawing := Drawing.start {} ⟨64, 64, .empty⟩
    let after := (drawing.call {} call).1
    after.program = "stroke-dasharray inf,1\n" ∧ after.call {} call = (after, .done) := by
  intro call drawing after
  have done : drawing.call {} call = (after, .done) := Drawing.call_of_done (by decide +kernel)
  exact ⟨by decide +kernel, settings_are_idempotent (.setting _) rfl done⟩

theorem Call.Folds.refold {context : Context} (folds : call.Folds context) :
    call.refold context = context.composeTransform context.bounds.unitMap := by
  obtain ⟨rfl, extended⟩ := folds
  exact if_pos extended

theorem Call.refold_of_not_folds {context : Context} (kept : ¬ call.Folds context) :
    call.refold context = context := by
  cases call with
  | instruct instruction =>
      cases instruction with
      | setting setting =>
          cases setting with
          | clipUnits units =>
              cases units with
              | objectBoundingBox => exact if_neg fun extended => kept ⟨rfl, extended⟩
              | userSpace | userSpaceOnUse => rfl
          | _ => rfl
      | _ => rfl
  | _ => rfl

theorem ContextStack.modify_congr {stack : ContextStack} {change other : Context → Context}
    (same : change stack.current = other stack.current) :
    stack.modify change = stack.modify other := by
  apply toList_injective
  rw [toList_modify, toList_modify, same]

/-- Made twice while every setting is written, a setting changes the contexts that it led to by
what it adds. -/
theorem Call.Sets.contexts_twice (sets : call.Sets) (unfiltered : drawing.filtering = false)
    (usable : drawing.poisoned = false) (unlimited : drawing.layout.limit = none) :
    ((drawing.call tools call).1.call tools call).1.contexts =
      (drawing.call tools call).1.contexts.modify call.refold := by
  rcases sets.edits tools drawing with ⟨failure, nothing, refused⟩ | ⟨edit, edits, again⟩
  · rw [nothing, ContextStack.modify_id, refused drawing rfl rfl]
    have again := refused (drawing.record failure) rfl rfl
    exact (congrArg (fun ended : Drawing × Outcome => ended.1.contexts) again).trans rfl
  · obtain ⟨buffer, ran⟩ := edit.run_changing (.inl unfiltered) usable unlimited
    let once : Drawing :=
      { drawing with buffer := buffer, contexts := drawing.contexts.modify edit.change }
    obtain ⟨repeated, called, repeats⟩ :=
      again once (drawing.contexts.current_modify edit.change) rfl rfl
    have ranAgain : ∃ longer, (repeated.plan once).run once = ({ once with
        buffer := longer, contexts := once.contexts.modify repeated.change }, .done) :=
      repeated.run_changing (.inl unfiltered) usable unlimited
    obtain ⟨longer, ranAgain⟩ := ranAgain
    rw [edits, ran, called, ranAgain]
    exact ContextStack.modify_congr repeats.change

/-- While every setting is written, a setting made once more leaves all contexts as they are,
except that units relative to an object with an area move the transform in force once more.  The
drawing is usable and has no byte limit. -/
theorem repeated_settings_fold_units (sets : call.Sets) (unfiltered : drawing.filtering = false)
    (usable : drawing.poisoned = false) (unlimited : drawing.layout.limit = none) :
    let once := (drawing.call tools call).1
    let twice := (once.call tools call).1
    (¬ call.Folds once.context → twice.contexts = once.contexts) ∧
      (call.Folds once.context → twice.contexts =
        once.contexts.modify (·.composeTransform once.context.bounds.unitMap)) := by
  intro once twice
  have contexts : twice.contexts = once.contexts.modify call.refold :=
    sets.contexts_twice unfiltered usable unlimited
  rw [contexts]
  constructor
  · intro kept
    exact ContextStack.modify_of_same (Call.refold_of_not_folds kept)
  · intro folds
    exact ContextStack.modify_congr folds.refold

/-- A fill that takes on the general opacity inside a pattern, set twice. -/
theorem repeated_settings_keep_coupled_fill :
    let half : Call := .instruct (.setting (.opacity 0.5))
    let pattern : Call := .instruct (.bracket (.openPattern "p" 0 0 8 8))
    let red : Call := .instruct (.setting (.paint .fill ⟨255, 0, 0, 255⟩))
    let drawing := (Drawing.start {} ⟨64, 64, .empty⟩).calls {} [half, pattern]
    let once := (drawing.call {} red).1
    let twice := (once.call {} red).1
    once.context.fill = ⟨⟨255, 0, 0, 128⟩, none⟩ ∧ twice.contexts = once.contexts ∧
      twice.program ≠ once.program := by
  intro half pattern red drawing once twice
  have unfiltered : drawing.filtering = false := by decide +kernel
  have usable : drawing.poisoned = false := by decide +kernel
  have kept : ¬ red.Folds once.context := by simp [Call.Folds, red]
  have keeps := @repeated_settings_fold_units {} drawing red (.setting _) unfiltered usable rfl
  have contexts := keeps.1 kept
  refine ⟨by decide +kernel, ?_, by decide +kernel⟩
  simp only [twice, once]
  exact contexts

/-- Units relative to an object of size two, set twice inside a pattern, scale by four. -/
theorem object_units_fold_twice :
    let pattern : Call := .instruct (.bracket (.openPattern "p" 0 0 8 8))
    let bounds : Call := .instruct (.setting (.bounds ⟨0, 0, 2, 2⟩))
    let units : Call := .instruct (.setting (.clipUnits .objectBoundingBox))
    let drawing := (Drawing.start {} ⟨64, 64, .empty⟩).calls {} [pattern, bounds]
    let once := (drawing.call {} units).1
    let twice := (once.call {} units).1
    drawing.filtering = false ∧ drawing.poisoned = false ∧ drawing.layout.limit = none ∧
      units.Sets ∧ (drawing.call {} units).2 = .done ∧ (once.call {} units).2 = .done ∧
      (once.context.transform.sx == 2) = true ∧ (twice.context.transform.sx == 4) = true ∧
      twice.contexts ≠ once.contexts := by
  intro pattern bounds units drawing once twice
  have scale : (once.contexts.current.transform.sx == 4) = false := by decide +kernel
  have scaleTwice : (twice.contexts.current.transform.sx == 4) = true := by decide +kernel
  refine ⟨by decide +kernel, by decide +kernel, rfl, .setting _, by decide +kernel,
    by decide +kernel, by decide +kernel, scaleTwice, ?_⟩
  intro same
  rw [same, scale] at scaleTwice
  cases scaleTwice

end Calls

end Quill
