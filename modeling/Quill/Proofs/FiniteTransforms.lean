import Quill.Proofs.CommandCalls
import Quill.Proofs.CommandForms
import Quill.Proofs.DoubleRange
import Quill.Proofs.Transforms

/-!
# Transforms that stay finite

Nothing looks at the coefficients of a transform when a map is put in front of it, so they are
finite only as long as the arithmetic is.  Every map that a script makes out of finite doubles is
finite itself, if sines, cosines and tangents are.  Then a product of two maps is finite just if no
product and no sum of two doubles in it overflows, and so the transforms of a replay stay finite
just as long as nothing overflows in the products that it forms.
-/

namespace Quill

open Number

def Transform.IsFinite (map : Transform) : Prop :=
  ∀ coefficient ∈ map.coefficients, isFinite coefficient = true

/-- No product and no sum of two doubles overflows in a row of a product of two maps. -/
structure Transform.RowFits (a b offset : Float) (inner : Transform) : Prop where
  x : DotInRange a inner.sx b inner.rx
  y : DotInRange a inner.ry b inner.sy
  origin : DotInRange a inner.tx b inner.ty
  moved : InRange (valueOf (a * inner.tx + b * inner.ty) + valueOf offset)

/-- No product and no sum of two doubles overflows in a product of two maps. -/
structure Transform.Fits (outer inner : Transform) : Prop where
  x : RowFits outer.sx outer.ry outer.tx inner
  y : RowFits outer.rx outer.sy outer.ty inner

instance (a b offset : Float) (inner : Transform) :
    Decidable (Transform.RowFits a b offset inner) :=
  decidable_of_iff (DotInRange a inner.sx b inner.rx ∧ DotInRange a inner.ry b inner.sy ∧
      DotInRange a inner.tx b inner.ty ∧
      InRange (valueOf (a * inner.tx + b * inner.ty) + valueOf offset))
    ⟨fun ⟨x, y, origin, moved⟩ => ⟨x, y, origin, moved⟩,
      fun ⟨x, y, origin, moved⟩ => ⟨x, y, origin, moved⟩⟩

instance (outer inner : Transform) : Decidable (outer.Fits inner) :=
  decidable_of_iff (Transform.RowFits outer.sx outer.ry outer.tx inner ∧
      Transform.RowFits outer.rx outer.sy outer.ty inner)
    ⟨fun ⟨x, y⟩ => ⟨x, y⟩, fun ⟨x, y⟩ => ⟨x, y⟩⟩

/-- The angles in radians whose sine, cosine or tangent a motion asks for. -/
def Motion.angles : Motion → List Float
  | .rotate degrees =>
    let angle := Transform.radians degrees
    if angle == 0 then [] else [angle]
  | .skewX degrees | .skewY degrees => [Transform.radians degrees]
  | .affine _ | .scale _ _ | .translate _ _ => []

/-- The angles in radians whose sine, cosine or tangent a command asks for. -/
def Command.angles : Command → List Float
  | .instruct (.motion motion) => motion.angles
  | _ => []

/-- The map that a command multiplies into the transform in force, if it is done. -/
def Command.map? (drawing after : Drawing) : Command → Option Transform
  | .instruct instruction =>
    ((Call.instruct instruction).map? drawing after).filter (!·.isIdentity)
  | .composite _ _ => none

/-- The products of maps that the replay of a script forms, in their order. -/
def products (tools : Tools) (files : FileReader) (base : String) (drawing : Drawing) :
    List Command → List (Transform × Transform)
  | [] => []
  | command :: rest =>
    match command.run tools files base drawing with
    | (after, .done) =>
      (command.map? drawing after).toList.map (drawing.context.transform, ·) ++
        products tools files base after rest
    | (_, .failed _) | (_, .aborted _) => []

section Maps

variable {outer inner : Transform} {motion : Motion}

theorem Transform.isFinite_iff {map : Transform} :
    map.IsFinite ↔ isFinite map.sx = true ∧ isFinite map.rx = true ∧ isFinite map.ry = true ∧
      isFinite map.sy = true ∧ isFinite map.tx = true ∧ isFinite map.ty = true := by
  simp [IsFinite, coefficients]

theorem Transform.isFinite_row {a b offset : Float} (left : isFinite a = true)
    (right : isFinite b = true) (last : isFinite offset = true) (finite : inner.IsFinite) :
    (isFinite (a * inner.sx + b * inner.rx) = true ∧ isFinite (a * inner.ry + b * inner.sy) = true ∧
        isFinite (a * inner.tx + b * inner.ty + offset) = true) ↔ RowFits a b offset inner := by
  obtain ⟨sx, rx, ry, sy, tx, ty⟩ := isFinite_iff.mp finite
  rw [isFinite_dot left sx right rx, isFinite_dot left ry right sy,
    isFinite_moved left tx right ty last]
  constructor
  · rintro ⟨x, y, origin, moved⟩
    exact ⟨x, y, origin, moved⟩
  · rintro ⟨x, y, origin, moved⟩
    exact ⟨x, y, origin, moved⟩

/-- A product of finite maps is finite just if nothing in it overflows. -/
theorem Transform.isFinite_mul_iff (left : outer.IsFinite) (right : inner.IsFinite) :
    (outer.mul inner).IsFinite ↔ outer.Fits inner := by
  obtain ⟨sx, rx, ry, sy, tx, ty⟩ := isFinite_iff.mp left
  have rowX := isFinite_row sx ry tx right
  have rowY := isFinite_row rx sy ty right
  rw [isFinite_iff]
  constructor
  · rintro ⟨sx, rx, ry, sy, tx, ty⟩
    exact ⟨rowX.mp ⟨sx, ry, tx⟩, rowY.mp ⟨rx, sy, ty⟩⟩
  · rintro ⟨x, y⟩
    obtain ⟨sx, ry, tx⟩ := rowX.mpr x
    obtain ⟨rx, sy, ty⟩ := rowY.mpr y
    exact ⟨sx, rx, ry, sy, tx, ty⟩

/-- Of the maps that are put in front of a transform the identity does nothing. -/
theorem Transform.foldl_compose (map? : Option Transform) (current : Transform) :
    map?.toList.foldl compose current = (map?.filter (!·.isIdentity)).elim current current.mul := by
  cases map? with
  | none => rfl
  | some map =>
      rw [Option.toList_some, List.foldl_cons, List.foldl_nil, compose]
      cases identity : map.isIdentity <;> simp [Option.filter_some, identity]

theorem Transform.isFinite_identity : identity.IsFinite :=
  isFinite_iff.mpr ⟨isFinite_one, isFinite_zero, isFinite_zero, isFinite_one, isFinite_zero,
    isFinite_zero⟩

theorem Transform.isFinite_radians (finite : isFinite x = true) :
    isFinite (radians x) = true := by
  have turned : isFinite (remainder x 360) = true :=
    isFinite_remainder finite (by decide) (by decide)
  have unit : isFinite 0.017453292519943295 = true := by decide +kernel
  have small : |valueOf 0.017453292519943295| ≤ 1 := by decide +kernel
  rw [radians, isFinite_mul turned unit, InRange, abs_mul]
  calc
    |valueOf (remainder x 360)| * |valueOf 0.017453292519943295| ≤
        |valueOf (remainder x 360)| := mul_le_of_le_one_right (abs_nonneg _) small
    _ < (2 ^ 53 - 1 / 2) * 2 ^ (971 : ℤ) := inRange_valueOf turned

/-- The map of a motion with finite parameters is finite, if its sines, cosines and tangents are. -/
theorem Motion.isFinite_map (finite : ∀ number ∈ motion.numbers, isFinite number = true)
    (functions : ∀ angle ∈ motion.angles, isFinite angle = true →
      isFinite angle.sin = true ∧ isFinite angle.cos = true ∧ isFinite angle.tan = true) :
    motion.map.IsFinite := by
  have zero := isFinite_zero
  have one := isFinite_one
  cases motion with
  | affine map => exact finite
  | rotate degrees =>
      have angle := Transform.isFinite_radians (finite degrees List.mem_cons_self)
      rw [angles] at functions
      rw [map, Transform.rotate]
      split
      · exact Transform.isFinite_identity
      · rename_i turns
        rw [if_neg turns] at functions
        obtain ⟨sine, cosine, -⟩ := functions _ List.mem_cons_self angle
        exact Transform.isFinite_iff.mpr ⟨cosine, sine, isFinite_neg sine, cosine, zero, zero⟩
  | scale x y =>
      simp only [numbers, List.forall_mem_cons] at finite
      exact Transform.isFinite_iff.mpr ⟨finite.1, zero, zero, finite.2.1, zero, zero⟩
  | skewX degrees =>
      have angle := Transform.isFinite_radians (finite degrees List.mem_cons_self)
      obtain ⟨-, -, tangent⟩ := functions _ List.mem_cons_self angle
      exact Transform.isFinite_iff.mpr ⟨one, zero, tangent, one, zero, zero⟩
  | skewY degrees =>
      have angle := Transform.isFinite_radians (finite degrees List.mem_cons_self)
      obtain ⟨-, -, tangent⟩ := functions _ List.mem_cons_self angle
      exact Transform.isFinite_iff.mpr ⟨one, tangent, zero, one, zero, zero⟩
  | translate x y =>
      simp only [numbers, List.forall_mem_cons] at finite
      exact Transform.isFinite_iff.mpr ⟨one, zero, zero, one, finite.1, finite.2.1⟩

end Maps

section Contexts

/-- How a call other than one that clears the drawing moves the contexts: one is changed, opened or
closed, or nothing happens to them. -/
inductive Rearranged (tools : Tools) (drawing : Drawing) (call : Call) (after : Drawing)
    (outcome : Outcome) : Prop
  | same (contexts : after.contexts = drawing.contexts)
      (still : outcome = .done → call.map? drawing after = none)
  | changed {plan : Plan} {change : Context → Context}
      (planned : call.plan? tools drawing = some plan) (updates : plan.Updates change)
      (wrote : ∀ line, plan = .line line (.context change) → drawing.WroteLine after line)
      (completed : outcome = .done) (contexts : after.contexts = drawing.contexts.modify change)
  | opened (contexts : after.contexts = drawing.contexts.push)
      (still : call.map? drawing after = none)
  | closed {top : Context} (popped : drawing.contexts.pop? = some (top, after.contexts))
      (still : call.map? drawing after = none)

variable {tools : Tools} {drawing after : Drawing} {call : Call} {outcome : Outcome}
  {change : Context → Context} {plan : Plan}

theorem Effect.rearranged (effect : Effect tools drawing call after outcome)
    (uncleared : call ≠ .clear) : Rearranged tools drawing call after outcome := by
  cases effect with
  | failed | refused | misdrawn | aborted => exact .same rfl nofun
  | kept planned plain => exact .same rfl fun _ => Call.map?_kept planned
  | adjusted planned plain => exact .changed planned .adjust nofun rfl rfl
  | wrote planned plain inner usable =>
      cases inner with
      | context change =>
          refine .changed planned (.write _) ?_ rfl rfl
          intro line equal
          cases equal
          exact Change.wroteLine_apply (.context change) line
      | nothing | path state =>
          exact .same rfl fun _ => Call.map?_of_written planned fun _ => Change.noConfusion
  | opened opens usable =>
      cases opens with
      | scope => exact .opened rfl rfl
      | pattern vacant | clipPath | defs => exact .same rfl fun _ => rfl
  | closed closes usable =>
      cases closes with
      | scope nested =>
          obtain ⟨top, outer, popped, -⟩ := ContextStack.pop?_of_nested nested
          refine .closed (popped.trans (congrArg (fun left => some (top, left)) ?_)) rfl
          simp only [Change.apply, popped]
      | pattern opened | clipPath opened | defs opened => exact .same rfl fun _ => rfl
  | cleared => exact (uncleared rfl).elim
  | rendered usable draws | dropped | forgotten => exact .same rfl fun _ => rfl

theorem Rearranged.moved {map : Transform} (moves : call.map? drawing after = some map)
    (rearranged : Rearranged tools drawing call after .done) :
    after.context.transform = drawing.context.transform.compose map := by
  cases rearranged with
  | same contexts still =>
      rw [still rfl] at moves
      cases moves
  | opened contexts still | closed popped still =>
      rw [still] at moves
      cases moves
  | changed planned updates wrote completed contexts =>
      rw [Drawing.context, contexts, ContextStack.current_modify]
      have changed := Call.transform_of_updates planned updates wrote
      rw [moves] at changed
      exact changed

/-- What holds of the contexts and of one that is changed holds of them afterwards. -/
theorem Rearranged.invariant {holds : Context → Prop}
    (rearranged : Rearranged tools drawing call after outcome)
    (kept : ∀ {plan : Plan} {change : Context → Context}, call.plan? tools drawing = some plan →
      plan.Updates change → (∀ line, plan = .line line (.context change) →
        drawing.WroteLine after line) → outcome = .done → holds (change drawing.context))
    (all : ∀ context ∈ drawing.contexts.toList, holds context) :
    ∀ context ∈ after.contexts.toList, holds context := by
  cases rearranged with
  | same contexts still =>
      rw [contexts]
      exact all
  | changed planned updates wrote completed contexts =>
      rw [contexts, ContextStack.toList_modify, List.forall_mem_cons]
      exact ⟨kept planned updates wrote completed,
        fun context member => all context (List.mem_of_mem_tail member)⟩
  | opened contexts still =>
      rw [contexts, ContextStack.toList_push, List.forall_mem_cons]
      exact ⟨all _ drawing.contexts.current_mem, all⟩
  | closed popped still =>
      rw [ContextStack.toList_of_pop? popped]
      exact fun context member => all context (List.mem_of_mem_tail member)

theorem Call.bounds_of_updates (planned : call.plan? tools drawing = some plan)
    (updates : plan.Updates change) :
    (∃ rectangle, call = .instruct (.setting (.bounds rectangle)) ∧
      (change drawing.context).bounds = rectangle) ∨
      (change drawing.context).bounds = drawing.context.bounds := by
  rcases Call.updates_cases planned updates with
    ⟨setting, edit, rfl, edits, rfl⟩ | ⟨accent, color, rfl, rfl⟩ | ⟨motion, rfl, rfl⟩
  · rw [Edit.change_of_updates updates]
    have untouched (apart : .bounds ∉ edit.target.touched) :
        (edit.change drawing.context).bounds = drawing.context.bounds := by
      have kept := Setting.edit?_frame drawing.context edits apart
      exact kept
    cases setting with
    | bounds rectangle =>
        cases edits
        exact .inl ⟨rectangle, rfl, rfl⟩
    | paintName | paintPattern | accentName | label | clipPath =>
        obtain ⟨value, -, rfl⟩ := exists_of_map_ok edits
        exact .inr (untouched fun member => Attribute.noConfusion (List.mem_singleton.mp member))
    | clipUnits units =>
        cases edits
        exact .inr (untouched (by simp [Context.clipUnitsEdit, Attribute.touched]))
    | _ =>
        cases edits
        exact .inr (untouched fun member => Attribute.noConfusion (List.mem_singleton.mp member))
  · rw [Edit.change_of_updates updates]
    cases accent <;> exact .inr rfl
  · rw [Motion.plan] at updates
    split at updates
    · cases updates
    · cases updates
      exact .inr rfl

end Contexts

section Replays

def Drawing.FiniteBounds (drawing : Drawing) : Prop :=
  ∀ context ∈ drawing.contexts.toList, ∀ number ∈ context.bounds.numbers, isFinite number = true

def Drawing.FiniteTransforms (drawing : Drawing) : Prop :=
  ∀ context ∈ drawing.contexts.toList, context.transform.IsFinite

/-- The doubles of a command are finite, and so are the sines, cosines and tangents that it asks
for. -/
structure Command.IsFinite (command : Command) : Prop where
  numbers : ∀ number ∈ command.numbers, isFinite number = true
  functions : ∀ angle ∈ command.angles, isFinite angle = true →
    isFinite angle.sin = true ∧ isFinite angle.cos = true ∧ isFinite angle.tan = true

variable {tools : Tools} {files : FileReader} {base : String} {drawing after : Drawing}
  {command : Command} {commands : List Command} {call : Call} {outcome : Outcome} {index : ℕ}
  {map : Transform}

theorem Command.eq_instruct {instruction : Instruction}
    (called : command.call? files base = .ok (.instruct instruction)) :
    command = .instruct instruction := by
  cases command with
  | instruct other =>
      cases called
      rfl
  | composite placement source =>
      rw [call?] at called
      split at called
      · obtain ⟨picture, -, impossible⟩ := exists_of_map_ok called
        cases impossible
      · cases called

theorem Command.map?_eq (called : command.call? files base = .ok call) :
    command.map? drawing after = (call.map? drawing after).filter (!·.isIdentity) := by
  rcases Command.call?_cases called with ⟨instruction, rfl⟩ | ⟨placement, picture, -, rfl⟩
  · rw [Command.eq_instruct called]
    rfl
  · cases command with
    | instruct instruction => cases called
    | composite placement source => rfl

theorem Command.rearranged (reachable : Reachable drawing)
    (ran : command.run tools files base drawing = (after, outcome)) :
    (after = drawing ∧ outcome ≠ .done) ∨
      ∃ call, command.call? files base = .ok call ∧
        Rearranged tools drawing call after outcome := by
  cases called : command.call? files base with
  | error failure =>
      rw [Command.run_of_refused called] at ran
      cases ran
      exact .inl ⟨rfl, nofun⟩
  | ok call =>
      rw [Command.run_of_call called] at ran
      refine .inr ⟨call, rfl, (reachable.effect ran).rearranged ?_⟩
      rcases Command.call?_cases called with ⟨_, rfl⟩ | ⟨_, _, -, rfl⟩ <;> nofun

theorem Command.finite_map (finite : command.IsFinite) (bounds : drawing.FiniteBounds)
    (moves : command.map? drawing after = some map) : map.IsFinite := by
  cases command with
  | composite placement source => cases moves
  | instruct instruction =>
      have moves := (Option.filter_eq_some_iff.mp moves).1
      cases instruction with
      | motion motion =>
          rw [Call.map?, Option.ite_none_left_eq_some] at moves
          obtain ⟨-, same⟩ := moves
          cases same
          exact Motion.isFinite_map finite.numbers finite.functions
      | setting setting =>
          cases setting with
          | clipUnits units =>
              cases units with
              | objectBoundingBox =>
                  rw [Call.map?, Option.ite_none_right_eq_some] at moves
                  obtain ⟨-, same⟩ := moves
                  cases same
                  have corners := bounds _ drawing.contexts.current_mem
                  simp only [Rectangle.numbers, List.forall_mem_cons] at corners
                  obtain ⟨x0, y0, x1, y1, -⟩ := corners
                  exact Transform.isFinite_iff.mpr ⟨x1, isFinite_zero, isFinite_zero, y1, x0, y0⟩
              | _ => cases moves
          | _ => cases moves
      | _ => cases moves

theorem Command.finite_bounds (reachable : Reachable drawing) (finite : command.IsFinite)
    (bounds : drawing.FiniteBounds)
    (ran : command.run tools files base drawing = (after, outcome)) : after.FiniteBounds := by
  rcases Command.rearranged reachable ran with ⟨rfl, -⟩ | ⟨call, called, rearranged⟩
  · exact bounds
  refine rearranged.invariant (fun planned updates _ _ => ?_) bounds
  rcases Call.bounds_of_updates planned updates with ⟨rectangle, rfl, set⟩ | kept
  · rw [set]
    rw [Command.eq_instruct called] at finite
    exact finite.numbers
  · rw [kept]
    exact bounds _ drawing.contexts.current_mem

/-- A command leaves the transforms finite just if nothing overflows in the product it forms. -/
theorem Command.finite_transforms_iff (reachable : Reachable drawing) (finite : command.IsFinite)
    (bounds : drawing.FiniteBounds) (begins : drawing.FiniteTransforms)
    (ran : command.run tools files base drawing = (after, outcome)) :
    after.FiniteTransforms ↔
      (outcome = .done → ∀ map, command.map? drawing after = some map →
        drawing.context.transform.Fits map) := by
  have current : drawing.context.transform.IsFinite := begins _ drawing.contexts.current_mem
  rcases Command.rearranged reachable ran with ⟨rfl, undone⟩ | ⟨call, called, rearranged⟩
  · exact iff_of_true begins fun completed => (undone completed).elim
  have same : command.map? drawing after = (call.map? drawing after).filter (!·.isIdentity) :=
    Command.map?_eq called
  constructor
  · rintro ends rfl map moves
    have finiteMap := Command.finite_map finite bounds moves
    rw [same, Option.filter_eq_some_iff] at moves
    obtain ⟨moves, moving⟩ := moves
    have last : after.context.transform.IsFinite := ends _ after.contexts.current_mem
    rw [rearranged.moved moves, Transform.compose, if_neg (by simpa using moving)] at last
    exact (Transform.isFinite_mul_iff current finiteMap).mp last
  · intro fits
    refine rearranged.invariant ?_ begins
    intro plan change planned updates wrote completed
    have changed := Call.transform_of_updates planned updates wrote
    rw [Transform.foldl_compose, ← same] at changed
    rw [changed]
    cases moves : command.map? drawing after with
    | none => exact current
    | some map =>
        exact (Transform.isFinite_mul_iff current (Command.finite_map finite bounds moves)).mpr
          (fits completed map moves)

/-- The transforms of a replay stay finite just as long as nothing overflows in its products. -/
theorem replayFrom_finite_iff (reachable : Reachable drawing) (bounds : drawing.FiniteBounds)
    (begins : drawing.FiniteTransforms) (finite : ∀ command ∈ commands, command.IsFinite) :
    (∀ earlier, earlier <+: commands →
        (replayFrom tools files base index drawing earlier).1.FiniteTransforms) ↔
      ∀ product ∈ products tools files base drawing commands, product.1.Fits product.2 := by
  induction commands generalizing drawing index with
  | nil =>
      refine iff_of_true ?_ (List.forall_mem_nil _)
      intro earlier beginning
      rw [List.prefix_nil.mp beginning]
      exact begins
  | cons command rest ih =>
      obtain ⟨here, later⟩ := List.forall_mem_cons.mp finite
      rcases ran : command.run tools files base drawing with ⟨after, outcome⟩
      have step := Command.finite_transforms_iff reachable here bounds begins ran
      have kept := Command.finite_bounds reachable here bounds ran
      rw [forall_prefix_cons, products, ran]
      simp only [replayFrom, ran]
      refine (and_iff_right begins).trans ?_
      cases outcome with
      | done =>
          have fits : (∀ product ∈ (command.map? drawing after).toList.map
              (drawing.context.transform, ·), product.1.Fits product.2) ↔
                after.FiniteTransforms := by
            rw [step]
            simp
          have reached := reachable.of_command ran
          rw [List.forall_mem_append, fits]
          constructor
          · intro all
            have ends : after.FiniteTransforms := all [] List.nil_prefix
            exact ⟨ends, (ih reached kept ends later).mp all⟩
          · rintro ⟨ends, others⟩
            exact (ih reached kept ends later).mpr others
      | failed failure =>
          have ends := step.mpr Outcome.noConfusion
          exact iff_of_true (fun _ _ => ends) (List.forall_mem_nil _)
      | aborted promise =>
          have ends := step.mpr Outcome.noConfusion
          exact iff_of_true (fun _ _ => ends) (List.forall_mem_nil _)

end Replays

/-- A replay of finite doubles keeps all transforms finite, in whatever drawing it passes through,
just as long as no product and no sum of two doubles overflows in a product of maps that it forms.
Sines, cosines and tangents of finite angles are taken to be finite. -/
theorem transforms_stay_finite {tools : Tools} {files : FileReader} {base : String}
    {settings : Settings} {canvas : Canvas} {commands : List Command}
    (finite : ∀ command ∈ commands, ∀ number ∈ command.numbers, isFinite number = true)
    (functions : ∀ command ∈ commands, ∀ angle ∈ command.angles, isFinite angle = true →
      isFinite angle.sin = true ∧ isFinite angle.cos = true ∧ isFinite angle.tan = true) :
    let start := Drawing.start settings canvas
    (∀ drawing, Passes tools files base start commands drawing →
        ∀ context ∈ drawing.contexts.toList, context.transform.IsFinite) ↔
      ∀ product ∈ products tools files base start commands, product.1.Fits product.2 := by
  intro start
  have bounds : start.FiniteBounds := by
    intro context member
    rw [List.mem_singleton.mp member]
    simp only [Rectangle.numbers, List.forall_mem_cons]
    exact ⟨isFinite_zero, isFinite_zero, isFinite_zero, isFinite_zero, List.forall_mem_nil _⟩
  have begins : start.FiniteTransforms := by
    intro context member
    rw [List.mem_singleton.mp member]
    exact Transform.isFinite_identity
  have inputs : ∀ command ∈ commands, command.IsFinite :=
    fun command member => ⟨finite command member, functions command member⟩
  rw [← replayFrom_finite_iff (.start settings canvas) bounds begins inputs]
  constructor
  · exact fun all earlier beginning => all _ ⟨earlier, beginning, rfl⟩
  · rintro all drawing ⟨earlier, beginning, rfl⟩
    exact all earlier beginning

/-- Large scales and bounds in a scope. -/
theorem transforms_stay_finite_in_scope :
    let files : FileReader := fun _ => .error .notFound
    let start := Drawing.start {} ⟨8, 8, .empty⟩
    let script : List Command :=
      [.motion (.scale 1e200 1e100), .bracket .openScope, .motion (.translate 1e100 5),
        .motion (.scale 1e100 2), .motion (.rotate 360), .setting (.bounds ⟨0, 0, 4, 5⟩),
        .setting (.clipUnits .objectBoundingBox), .bracket .closeScope]
    (products {} files "" start script).length = 4 ∧
      ∀ drawing, Passes {} files "" start script drawing →
        ∀ context ∈ drawing.contexts.toList, context.transform.IsFinite := by
  intro files start script
  have finite : ∀ command ∈ script, ∀ number ∈ command.numbers, isFinite number = true := by
    decide +kernel
  have functionless : ∀ command ∈ script, command.angles = [] := by decide +kernel
  have fits : ∀ product ∈ products {} files "" start script, product.1.Fits product.2 := by
    decide +kernel
  refine ⟨by decide +kernel, (transforms_stay_finite finite ?_).mpr fits⟩
  intro command member angle among
  rw [functionless command member] at among
  cases among

/-- Two scales with finite factors overflow. -/
theorem scales_overflow :
    let files : FileReader := fun _ => .error .notFound
    let start := Drawing.start {} ⟨8, 8, .empty⟩
    let script : List Command := [.motion (.scale 1e200 1e200), .motion (.scale 1e200 1e200)]
    (∀ command ∈ script, ∀ number ∈ command.numbers, isFinite number = true) ∧
      ∃ drawing, Passes {} files "" start script drawing ∧
        ∃ context ∈ drawing.contexts.toList, isFinite context.transform.sx = false := by
  intro files start script
  refine ⟨by decide +kernel, _, .last, _, ContextStack.current_mem _, ?_⟩
  decide +kernel

end Quill
