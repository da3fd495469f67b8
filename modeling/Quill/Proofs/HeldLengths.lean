import Quill.Proofs.DoubleOrder
import Quill.Proofs.Repeats

/-!
# Lengths in force

A length that is set is left out if it is in force already, up to a small tolerance.  What is in
force then stands for the given length: it is equal to it, or so near that their exact difference
is below the tolerance, however the difference of the doubles was rounded.  There is one exception.
The difference of an undefined length and any other is undefined and never reaches the tolerance,
so an undefined length in force hides a defined one that is set, and the other way round.
-/

namespace Quill

open Number Float.Model

/-- A length in force stands for a given one if they are the same or equal, both undefined, or
nearer to each other than the tolerance. -/
inductive StandsFor (held given : Float) : Prop
  | same (same : held = given)
  | equal (equal : (held == given) = true)
  | undefined (held : held.isNaN = true) (given : given.isNaN = true)
  | near (finite : isFinite held = true) (finite' : isFinite given = true)
      (near : |valueOf held - valueOf given| < valueOf tolerance)

/-- Just one of two lengths is undefined. -/
def Mixed (held given : Float) : Prop :=
  held.isNaN ≠ given.isNaN

instance (held given : Float) : Decidable (Mixed held given) :=
  inferInstanceAs (Decidable (_ ≠ _))

/-- The lengths that a setting sets, a list of them or a single one. -/
def Setting.lengths? : Setting → Option (List Float)
  | .measure _ value => some [value]
  | .dashes lengths => some lengths
  | _ => none

/-- The lengths in force that a setting sets. -/
def Context.lengths (context : Context) : Setting → List Float
  | .measure index _ => [context.measure index]
  | .dashes _ => context.dashes
  | _ => []

/-- A setting is overlooked: it changes nothing because the lengths in force stand for the given
ones wherever both are defined or both are not, but somewhere just one of the two is defined. -/
structure Setting.Overlooked (setting : Setting) (drawing after : Drawing) (given : List Float) :
    Prop where
  filtering : drawing.filtering = true
  unchanged : after = drawing
  others : List.Forall₂ (fun held given => Mixed held given ∨ StandsFor held given)
    (drawing.context.lengths setting) given
  mixed : ∃ pair ∈ (drawing.context.lengths setting).zip given, Mixed pair.1 pair.2

section Differences

variable {x y : Float}

theorem isNaN_eq (x : Float) : x.isNaN = (Reading.of x).unpacked.isNaN := by
  rw [← unpack_toModel]
  rfl

theorem reading_tolerance : Reading.of tolerance = .finite ⟨false, 4951760157141521, -92⟩ := by
  decide +kernel

/-- Finite lengths that are no nearer than the tolerance differ. -/
theorem lengthsDiffer_of_far (left : isFinite x = true) (right : isFinite y = true)
    (far : valueOf tolerance ≤ |valueOf x - valueOf y|) : lengthsDiffer x y = true := by
  have value : valueOf tolerance = Binary.signed ⟨false, 4951760157141521, -92⟩ := by
    rw [valueOf, reading_tolerance]
  have positive : 0 < Binary.signed ⟨false, 4951760157141521, -92⟩ := by
    rw [Binary.signed, Binary.magnitude]
    norm_num
  rw [value] at far
  exact decide_eq_true (le_abs_sub left right reading_tolerance positive far)

theorem lengthsDiffer_of_infinite {sign : UnpackedFloat.Sign}
    (difference : UnpackedFloat.sub Format.binary64 (Reading.of x).unpacked
      (Reading.of y).unpacked = .infinity sign) : lengthsDiffer x y = true := by
  rw [lengthsDiffer, sub_eq, difference]
  cases sign <;> decide +kernel

theorem lengthsDiffer_of_undefined
    (difference : UnpackedFloat.sub Format.binary64 (Reading.of x).unpacked
      (Reading.of y).unpacked = .notANumber) : lengthsDiffer x y = false := by
  rw [lengthsDiffer, sub_eq, difference]
  decide +kernel

/-- Lengths of which just one is undefined do not differ. -/
theorem lengthsDiffer_of_mixed (mixed : Mixed x y) : lengthsDiffer x y = false := by
  rw [Mixed, isNaN_eq, isNaN_eq] at mixed
  apply lengthsDiffer_of_undefined
  cases left : (Reading.of x).unpacked with
  | notANumber => rfl
  | _ =>
      cases right : (Reading.of y).unpacked with
      | notANumber => rfl
      | _ =>
          rw [left, right] at mixed
          exact (mixed rfl).elim

theorem standsFor_of_near (left : isFinite x = true) (right : isFinite y = true)
    (kept : lengthsDiffer x y = false) : StandsFor x y := by
  refine .near left right (not_le.mp fun far => ?_)
  rw [lengthsDiffer_of_far left right far] at kept
  cases kept

/-- What does not differ from a length stands for it, unless just one of the two is undefined. -/
theorem standsFor_of_alike (kept : lengthsDiffer x y = false) (alike : ¬ Mixed x y) :
    StandsFor x y := by
  have infinite : ∀ sign, UnpackedFloat.sub Format.binary64 (Reading.of x).unpacked
      (Reading.of y).unpacked ≠ .infinity sign := by
    intro sign difference
    rw [lengthsDiffer_of_infinite difference] at kept
    cases kept
  rw [Mixed, not_not, isNaN_eq, isNaN_eq] at alike
  cases left : (Reading.of x).unpacked with
  | notANumber =>
      rw [left] at alike
      exact .undefined ((isNaN_eq x).trans (congrArg _ left)) ((isNaN_eq y).trans alike.symm)
  | infinity sign =>
      rw [left] at alike infinite
      cases right : (Reading.of y).unpacked with
      | notANumber =>
          rw [right] at alike
          cases alike
      | infinity other =>
          rw [right] at infinite
          refine .equal ?_
          rw [beq_eq, left, right]
          cases sign with
          | negative =>
              cases other with
              | negative => rfl
              | positive => exact (infinite .negative rfl).elim
          | positive =>
              cases other with
              | negative => exact (infinite .positive rfl).elim
              | positive => rfl
      | zero | finite =>
          rw [right] at infinite
          exact (infinite sign rfl).elim
  | zero | finite =>
      rw [left] at alike infinite
      have finite : isFinite x = true := (isFinite_unpacked x).trans (congrArg _ left)
      cases right : (Reading.of y).unpacked with
      | notANumber =>
          rw [right] at alike
          cases alike
      | infinity other =>
          rw [right] at infinite
          exact (infinite (-other) rfl).elim
      | zero | finite =>
          exact standsFor_of_near finite ((isFinite_unpacked y).trans (congrArg _ right)) kept

theorem isNaN_of_isFinite (finite : isFinite x = true) : x.isNaN = false := by
  rw [isFinite_unpacked] at finite
  rw [isNaN_eq]
  cases parts : (Reading.of x).unpacked with
  | zero | finite => rfl
  | infinity | notANumber =>
      rw [parts] at finite
      cases finite

theorem isNaN_of_beq (equal : (x == y) = true) : x.isNaN = false ∧ y.isNaN = false := by
  rw [beq_eq] at equal
  rw [isNaN_eq, isNaN_eq]
  cases left : (Reading.of x).unpacked with
  | notANumber =>
      rw [left] at equal
      cases equal
  | _ =>
      cases right : (Reading.of y).unpacked with
      | notANumber =>
          rw [left, right] at equal
          cases equal
      | _ => exact ⟨rfl, rfl⟩

/-- Lengths that stand for each other are both undefined, or neither is. -/
theorem StandsFor.not_mixed (stands : StandsFor x y) : ¬ Mixed x y := by
  rw [Mixed, not_not]
  cases stands with
  | same same => rw [same]
  | undefined held given => rw [held, given]
  | near finite finite' near => rw [isNaN_of_isFinite finite, isNaN_of_isFinite finite']
  | equal equal => rw [(isNaN_of_beq equal).1, (isNaN_of_beq equal).2]

theorem mixed_or_standsFor (kept : lengthsDiffer x y = false) : Mixed x y ∨ StandsFor x y :=
  (em (Mixed x y)).imp_right (standsFor_of_alike kept)

theorem dashesDiffer_eq_false {held given : List Float}
    (kept : dashesDiffer held given = false) :
    List.Forall₂ (fun held given => Mixed held given ∨ StandsFor held given) held given := by
  rw [dashesDiffer, Bool.or_eq_false_iff, bne_eq_false_iff_eq, List.any_eq_false] at kept
  obtain ⟨length, pairs⟩ := kept
  refine List.forall₂_iff_zip.mpr ⟨length, @fun first second member => ?_⟩
  have same : ¬ lengthsDiffer first second = true := pairs (first, second) member
  exact mixed_or_standsFor (Bool.eq_false_iff.mpr same)

end Differences

section Calls

variable {tools : Tools} {drawing after : Drawing} {setting : Setting} {edit : Edit}
  {given : List Float}

/-- Lengths that are set are in force, and those that are left out were mixed or stood for the
given ones. -/
theorem Setting.edit?_lengths (sets : setting.lengths? = some given)
    (edits : setting.edit? tools drawing = .ok edit) :
    (edit.change drawing.context).lengths setting = given ∧
      (edit.differs = false → List.Forall₂ (fun held given => Mixed held given ∨
        StandsFor held given) (drawing.context.lengths setting) given) := by
  cases setting with
  | measure index value =>
      cases sets
      cases edits
      refine ⟨?_, fun kept => .cons (mixed_or_standsFor kept) .nil⟩
      cases index <;> rfl
  | dashes lengths =>
      cases sets
      cases edits
      exact ⟨rfl, dashesDiffer_eq_false⟩
  | _ => cases sets

/-- After a call that sets lengths the lengths in force stand for the given ones, whether or not
the call was left out, except where it was overlooked: an undefined length in force keeps a
defined one from being set, or a defined one an undefined one. -/
theorem set_lengths_stand_for_given (sets : setting.lengths? = some given)
    (called : drawing.call tools (.instruct (.setting setting)) = (after, .done)) :
    List.Forall₂ StandsFor (after.context.lengths setting) given ∨
      setting.Overlooked drawing after given := by
  cases edits : setting.edit? tools drawing with
  | error failure =>
      rw [Setting.call_of_refused edits] at called
      cases called
  | ok edit =>
      obtain ⟨inForce, kept⟩ := Setting.edit?_lengths sets edits
      rw [Setting.call_of_edit edits] at called
      rcases Edit.run_done called with ⟨rfl, filtering, same⟩ | ⟨buffer, rfl⟩
      · by_cases mixed : ∃ pair ∈ (after.context.lengths setting).zip given, Mixed pair.1 pair.2
        · exact .inr ⟨filtering, rfl, kept same, mixed⟩
        · obtain ⟨length, pairs⟩ := List.forall₂_iff_zip.mp (kept same)
          refine .inl (List.forall₂_iff_zip.mpr ⟨length, @fun held given member => ?_⟩)
          exact (pairs member).resolve_left fun apart => mixed ⟨(held, given), member, apart⟩
      · refine .inl ?_
        rw [Drawing.context, ContextStack.current_modify]
        rw [Drawing.context] at inForce
        rw [inForce]
        exact List.forall₂_same.mpr fun _ _ => .same rfl

/-- A width that is set again after a change in its last digits: it is left out, and the width in
force stands for it. -/
theorem set_lengths_stand_for_given_near_width :
    let width (value : Float) : Setting := .measure .strokeWidth value
    let drawing := ((Drawing.start {} ⟨64, 64, .empty⟩).call {} (.instruct (.setting (width 2)))).1
    let after := (drawing.call {} (.instruct (.setting (width 2.00000000000001)))).1
    after.program = "stroke-width 2\n" ∧
      List.Forall₂ StandsFor (after.context.lengths (width 2)) [2.00000000000001] := by
  intro width drawing after
  have called : drawing.call {} (.instruct (.setting (width 2.00000000000001))) = (after, .done) :=
    Drawing.call_of_done (by decide +kernel)
  refine ⟨by decide +kernel, ?_⟩
  rcases set_lengths_stand_for_given rfl called with stands | overlooked
  · exact stands
  · exact absurd overlooked.mixed (by decide +kernel)

/-- While settings in force are left out, a length does nothing if just one of it and the length in
force is undefined. -/
theorem mixed_length_is_overlooked {index : Measure} {value : Float}
    (filtering : drawing.filtering = true) (mixed : Mixed (drawing.context.measure index) value) :
    drawing.call tools (.instruct (.setting (.measure index value))) = (drawing, .done) := by
  rw [Setting.call_of_edit rfl]
  exact Edit.run_kept filtering (lengthsDiffer_of_mixed mixed)

/-- A width that was undefined in a pattern stays so behind it, though another one is set: the call
succeeds and writes nothing, and the width in force does not stand for the given one. -/
theorem undefined_length_hides_setting :
    let undefined : Call := .instruct (.setting (.measure .strokeWidth (0 / 0)))
    let drawing := (Drawing.start {} ⟨64, 64, .empty⟩).calls {}
      [.instruct (.bracket (.openPattern "p" 0 0 8 8)), undefined,
        .instruct (.bracket .closePattern)]
    let called := drawing.call {} (.instruct (.setting (.measure .strokeWidth 5)))
    called.2 = .done ∧ called.1.program = drawing.program ∧
      ¬ StandsFor (called.1.context.measure .strokeWidth) 5 := by
  intro undefined drawing called
  have mixed : Mixed (called.1.context.measure .strokeWidth) 5 := by decide +kernel
  exact ⟨by decide +kernel, by decide +kernel, fun stands => stands.not_mixed mixed⟩

end Calls

end Quill
