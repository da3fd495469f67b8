import Quill.Proofs.PaintTokens
import Quill.Proofs.Repeats

/-!
# The opacity of paints

A paint takes on the general opacity when it is set, unless it is fully transparent.  A color that
is set has taken it on even if the setting was left out, because the test for that compares the
color with the opacity taken on.  The test of a pattern compares the pattern alone.  So a pattern
that is set again, while settings in force are left out, keeps the opacity of the paint below it,
also if the general opacity was set in between.
-/

namespace Quill

/-- A paint that has taken on the general opacity. -/
def Context.Coupled (context : Context) (side : Side) : Prop :=
  (context.paint side).color.isTransparent = true ∨ (context.paint side).color.a = context.alpha

instance (context : Context) (side : Side) : Decidable (context.Coupled side) :=
  inferInstanceAs (Decidable (_ ∨ _))

/-- A drawing that leaves out the setting of a paint to a pattern, which is in force. -/
def Drawing.Omits (drawing : Drawing) (side : Side) (id : String) : Prop :=
  drawing.filtering = true ∧ (drawing.context.paint side).pattern = some id

section Coupling

variable {tools : Tools} {drawing after : Drawing} {call : Call} {side : Side} {url id : String}
  {color : Rgba}

theorem Context.coupled_of_couple {context : Context} {alpha : UInt8}
    (held : (context.paint side).color = color.couple alpha) (same : context.alpha = alpha) :
    context.Coupled side := by
  rw [Coupled, held, same, Rgba.couple]
  split
  · exact .inl ‹_›
  · exact .inr rfl

theorem Edit.OfPaint.alpha {edit : Edit} (ofPaint : edit.OfPaint drawing.context side)
    (done : (edit.plan drawing).run drawing = (after, .done)) :
    after.context.alpha = drawing.context.alpha := by
  rcases Edit.run_done done with ⟨rfl, -, -⟩ | ⟨buffer, rfl⟩
  · rfl
  · rw [Drawing.context, ContextStack.current_modify]
    cases ofPaint <;> exact drawing.context.alpha_setPaint side _

theorem Call.Paints.run (paints : call.Paints tools side color) :
    drawing.call tools call =
      ((drawing.context.paintEdit side color).plan drawing).run drawing := by
  cases paints with
  | value => rfl
  | name resolved =>
      rw [Drawing.call, Instruction.plan, Setting.plan, resolved]
      rfl

theorem Drawing.call_paintPattern
    (called : drawing.call tools (.instruct (.setting (.paintPattern side url))) = (after, .done)) :
    ∃ id, drawing.patternReference url = .ok id ∧
      ((drawing.context.patternEdit side id).plan drawing).run drawing = (after, .done) := by
  cases edits : (Setting.paintPattern side url).edit? tools drawing with
  | error failure =>
      rw [Setting.call_of_refused edits] at called
      cases called
  | ok edit =>
      obtain ⟨id, found, rfl⟩ := exists_of_map_ok edits
      exact ⟨id, found, (Setting.call_of_edit edits).symm.trans called⟩

/-- A pattern that was set is in force.  The color below it has taken on the general opacity,
unless the setting was left out, which happens just if the pattern was in force. -/
theorem Context.patternEdit_done
    (done : ((drawing.context.patternEdit side id).plan drawing).run drawing = (after, .done)) :
    drawing.Omits side id ∧ after = drawing ∨
      ¬ drawing.Omits side id ∧ after.context.paint side =
        ⟨(drawing.context.paint side).color.couple drawing.context.alpha, some id⟩ := by
  by_cases omits : drawing.Omits side id
  · obtain ⟨filtered, held⟩ := omits
    have inForce : (drawing.context.patternEdit side id).differs = false := by
      simp [patternEdit, held]
    rw [Edit.run_kept filtered inForce] at done
    cases done
    exact .inl ⟨⟨filtered, held⟩, rfl⟩
  · refine .inr ⟨omits, ?_⟩
    rcases Edit.run_done done with ⟨-, filtered, inForce⟩ | ⟨buffer, rfl⟩
    · exact (omits ⟨filtered, bne_eq_false_iff_eq.mp inForce⟩).elim
    · rw [Drawing.context, ContextStack.current_modify]
      exact drawing.context.paint_setPaint side _

/-- Paints take on the general opacity when they are set.  Behind a call that sets a paint to a
color and is done, no pattern is in its place, and the color is the given one with the general
opacity, or the given one itself if that is fully transparent.  Behind a call that sets a paint to
a pattern, the pattern that is referred to is in force, and the color below it has taken on the
general opacity, except that a call that is left out, because the same pattern is in force while
such settings are not written, changes nothing. -/
theorem paints_take_on_opacity (called : drawing.call tools call = (after, .done)) (side : Side) :
    (∀ color, call.Paints tools side color →
        after.context.paint side =
          ⟨if color.isTransparent then color else color.withAlpha after.context.alpha, none⟩) ∧
      ∀ url, call = .instruct (.setting (.paintPattern side url)) →
        ∃ id, url = "#" ++ id ∧ (after.context.paint side).pattern = some id ∧
          (¬ drawing.Omits side id → after.context.Coupled side) ∧
          (drawing.Omits side id → after = drawing) := by
  constructor
  · intro color paints
    have alpha : after.context.alpha = drawing.context.alpha :=
      (Edit.OfPaint.color color).alpha (paints.run.symm.trans called)
    rw [paints.done called, alpha]
    rfl
  · rintro url rfl
    obtain ⟨id, found, done⟩ := Drawing.call_paintPattern called
    have alpha := (Edit.OfPaint.pattern id).alpha done
    refine ⟨id, Drawing.patternReference_ok found, ?_⟩
    rcases Context.patternEdit_done done with ⟨omits, rfl⟩ | ⟨set, paint⟩
    · exact ⟨omits.2, fun set => (set omits).elim, fun _ => rfl⟩
    · rw [paint]
      refine ⟨rfl, fun _ => ?_, fun omits => (set omits).elim⟩
      exact Context.coupled_of_couple (congrArg Paint.color paint) alpha

end Coupling

/-- A pattern over a fill that takes on an opacity of one half. -/
theorem paints_take_on_opacity_below_pattern :
    let publish : List Call := [.instruct (.bracket (.openPattern "p" 0 0 8 8)),
      .instruct (.bracket .closePattern)]
    let half : Call := .instruct (.setting (.opacity 0.5))
    let pattern : Call := .instruct (.setting (.paintPattern .fill "#p"))
    let drawing := (Drawing.start {} ⟨64, 64, .empty⟩).calls {} (publish ++ [half])
    let after := (drawing.call {} pattern).1
    drawing.call {} pattern = (after, .done) ∧ ¬ drawing.Omits .fill "p" ∧
      after.context.fill.color = ⟨0, 0, 0, 128⟩ ∧ after.context.Coupled .fill := by
  intro publish half pattern drawing after
  have done : drawing.call {} pattern = (after, .done) :=
    Drawing.call_of_done (by decide +kernel)
  have vacant : (drawing.context.paint .fill).pattern = none := by decide +kernel
  have kept : ¬ drawing.Omits .fill "p" := by
    rintro ⟨-, held⟩
    rw [vacant] at held
    cases held
  obtain ⟨id, named, -, coupled, -⟩ := (paints_take_on_opacity done .fill).2 "#p" rfl
  have reference : "#p" = "#" ++ "p" := by decide
  cases (String.append_right_inj "#").mp (reference.symm.trans named)
  exact ⟨done, kept, by decide +kernel, coupled kept⟩

/-- A pattern that is set before and after an opacity leaves the fill opaque. -/
theorem repeated_pattern_keeps_opacity :
    let publish : List Call := [.instruct (.bracket (.openPattern "p" 0 0 8 8)),
      .instruct (.bracket .closePattern)]
    let half : Call := .instruct (.setting (.opacity 0.5))
    let pattern : Call := .instruct (.setting (.paintPattern .fill "#p"))
    let drawing := (Drawing.start {} ⟨64, 64, .empty⟩).calls {} (publish ++ [pattern, half])
    let after := (drawing.call {} pattern).1
    (drawing.call {} pattern).2 = .done ∧ after.context.fill.pattern = some "p" ∧
      after.context.fill.color = .black ∧ after.context.alpha = 128 ∧
      ¬ after.context.Coupled .fill := by
  decide +kernel

end Quill
