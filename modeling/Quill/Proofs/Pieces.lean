import Quill.Proofs.NumberSize
import Quill.Proofs.Plan
import Quill.Proofs.Room

/-!
# What it takes to write an instruction

A wrapping piece longer than a fixed number of bytes cannot be written.  None that a call plans
is that long, so it is only the byte limit that decides whether an instruction can be written.
-/

namespace Quill

/-- A plan that leaves it to the byte limit whether there is room: it is not refused for want of
room, and none of its pieces is too long to be written. -/
def Plan.Modest : Plan → Prop
  | .refuse failure => failure ≠ .outOfMemory
  | .write pieces _ => ∀ piece ∈ pieces, piece.Short
  | .keep | .adjust _ | .close _ _ => True

/-- An encoder that never runs out of memory. -/
def Tools.Roomy (tools : Tools) : Prop :=
  ∀ picture, tools.encode picture ≠ .error .outOfMemory

section Sizes

theorem utf8ByteSize_intercalate_le {size : Nat} {groups : List String}
    (bounded : ∀ group ∈ groups, group.utf8ByteSize ≤ size) :
    (" ".intercalate groups).utf8ByteSize ≤ groups.length * (size + 1) := by
  have space : " ".utf8ByteSize = 1 := rfl
  induction groups with
  | nil => simp
  | cons first rest ih =>
      obtain ⟨firstBound, others⟩ := List.forall_mem_cons.mp bounded
      have restBound := ih others
      cases rest with
      | nil =>
          rw [String.intercalate_singleton, List.length_singleton]
          omega
      | cons second rest =>
          rw [String.intercalate_cons_cons, String.utf8ByteSize_append,
            String.utf8ByteSize_append, List.length_cons, Nat.add_mul]
          omega

theorem Path.Segment.utf8ByteSize_group_le (segment : Path.Segment) :
    ∀ group ∈ segment.groups, group.utf8ByteSize ≤ 35 := by
  have number : ∀ x, (Number.coordinate x).utf8ByteSize ≤ 35 := fun x =>
    (Number.utf8ByteSize_coordinate_le x).trans (by decide)
  have flag : ∀ value, (Path.flag value).utf8ByteSize ≤ 35 := by decide
  cases segment <;>
    simp [groups, number, flag, Number.utf8ByteSize_coordinatePair_le]

theorem Path.Segment.utf8ByteSize_coordinates_le (segment : Path.Segment) :
    segment.coordinates.utf8ByteSize ≤ 180 := by
  have groups := utf8ByteSize_intercalate_le segment.utf8ByteSize_group_le
  have count : segment.groups.length ≤ 5 := by
    cases segment <;> simp [Path.Segment.groups]
  rw [coordinates]
  omega

theorem Path.Token.utf8ByteSize_text_le (token : Path.Token) : token.text.utf8ByteSize ≤ 5 := by
  have space : ' '.utf8Size = 1 := rfl
  cases token with
  | first letter =>
      have := letter.utf8Size_le_four
      simp only [text, String.utf8ByteSize_ofList, String.utf8Len_cons, String.utf8Len_nil]
      omega
  | command letter =>
      have := letter.utf8Size_le_four
      simp only [text, String.utf8ByteSize_ofList, String.utf8Len_cons, String.utf8Len_nil]
      omega
  | continued => decide

theorem Shape.short_pointList (word : String) (points : List (Float × Float)) :
    ∀ piece ∈ Shape.pointList word points, piece.Short := by
  intro piece member
  simp only [Shape.pointList, List.cons_append, List.mem_cons, List.mem_append, List.mem_map,
    List.not_mem_nil, or_false] at member
  rcases member with rfl | ⟨point, among, rfl⟩ | rfl
  · trivial
  · have pair := Number.utf8ByteSize_coordinatePair_le point.1 point.2
    have space : " ".utf8ByteSize = 1 := rfl
    simp only [Piece.Short, pieceLimit, String.utf8ByteSize_append]
    omega
  · trivial

end Sizes

section Plans

variable {tools : Tools} {drawing : Drawing}

theorem Plan.modest_line (text : String) (change : Change) : (Plan.line text change).Modest := by
  intro piece member
  rw [List.mem_singleton.mp member]
  trivial

theorem Plan.modest_checked {α : Type} {argument : Except Failure α} {plan : α → Plan}
    (refused : ∀ failure, argument = .error failure → failure ≠ .outOfMemory)
    (modest : ∀ value, (plan value).Modest) : (Plan.checked argument plan).Modest := by
  cases argument with
  | error failure => exact refused failure rfl
  | ok value => exact modest value

theorem Drawing.require_roomy {what value : String} (failure : Failure)
    (refused : Drawing.require what value = .error failure) : failure ≠ .outOfMemory := by
  rw [require] at refused
  split at refused
  · cases refused
    exact Failure.noConfusion
  · cases refused

theorem Drawing.resolveColor_roomy {name : String} (failure : Failure)
    (refused : Drawing.resolveColor tools name = .error failure) : failure ≠ .outOfMemory := by
  simp only [resolveColor, bind, Except.bind] at refused
  split at refused
  · rename_i required
    cases refused
    exact require_roomy _ required
  split at refused
  · cases refused
  · cases refused
    nofun

theorem Drawing.patternReference_roomy {url : String} (failure : Failure)
    (refused : drawing.patternReference url = .error failure) : failure ≠ .outOfMemory := by
  simp only [patternReference, bind, Except.bind] at refused
  split at refused
  · rename_i required
    cases refused
    exact require_roomy _ required
  split at refused
  · split at refused
    · cases refused
    · cases refused
      nofun
  · cases refused
    nofun

theorem Drawing.update_modest (differs : Bool) (text : String) (change : Context → Context) :
    (drawing.update differs text change).Modest := by
  rw [update]
  split
  · trivial
  · exact Plan.modest_line _ _

theorem Drawing.updateSpelled_modest (differs : Bool) (word : String) (spelling : Option String)
    (change : Context → Context) :
    (drawing.updateSpelled differs word spelling change).Modest := by
  unfold updateSpelled
  split
  · trivial
  cases spelling with
  | none => trivial
  | some text => exact Plan.modest_line _ _

theorem Setting.plan_modest (setting : Setting) : (setting.plan tools drawing).Modest := by
  cases setting with
  | paintName side name =>
      exact Plan.modest_checked Drawing.resolveColor_roomy fun _ => Drawing.update_modest ..
  | paintPattern side url =>
      exact Plan.modest_checked Drawing.patternReference_roomy fun _ => Drawing.update_modest ..
  | accentName accent name =>
      exact Plan.modest_checked Drawing.resolveColor_roomy fun _ => Drawing.update_modest ..
  | label index text =>
      exact Plan.modest_checked Drawing.require_roomy fun _ => Drawing.update_modest ..
  | clipPath id =>
      refine Plan.modest_checked Drawing.require_roomy fun name => ?_
      rw [Drawing.clipPathPlan]
      split
      · exact Drawing.update_modest ..
      · exact Failure.noConfusion
  | bounds rectangle => trivial
  | gravity anchor => exact Drawing.updateSpelled_modest ..
  | alignment side => exact Drawing.updateSpelled_modest ..
  | direction run => exact Drawing.updateSpelled_modest ..
  | _ => exact Drawing.update_modest ..

theorem Motion.plan_modest (motion : Motion) : motion.plan.Modest := by
  rw [plan]
  split
  · trivial
  · exact Plan.modest_line _ _

theorem Bracket.plan_modest (bracket : Bracket) : (bracket.plan drawing).Modest := by
  cases bracket with
  | openScope | openDefs => exact Plan.modest_line _ _
  | openPattern id x y width height =>
      refine Plan.modest_checked Drawing.require_roomy fun id => ?_
      cases drawing.pattern with
      | none => exact Plan.modest_line _ _
      | some capture => exact Failure.noConfusion
  | openClipPath id =>
      exact Plan.modest_checked Drawing.require_roomy fun id => Plan.modest_line _ _
  | closeScope | closeDefs =>
      rw [plan]
      split
      · exact Failure.noConfusion
      split
      · exact Failure.noConfusion
      · trivial
  | closePattern | closeClipPath =>
      rw [plan]
      split
      · exact Failure.noConfusion
      split
      · exact Failure.noConfusion
      · trivial

theorem Shape.plan_modest (shape : Shape) : shape.plan.Modest := by
  cases shape with
  | bezier points | polygon points | polyline points => exact short_pointList _ _
  | _ =>
      intro piece member
      rw [List.mem_singleton.mp member]
      trivial

theorem Path.Step.plan_modest (step : Path.Step) : (step.plan drawing).Modest := by
  cases step with
  | start | finish =>
      intro piece member
      rw [List.mem_singleton.mp member]
      trivial
  | close =>
      intro piece member
      have token := (drawing.path.token .close drawing.path.closeMode).utf8ByteSize_text_le
      rw [List.mem_singleton.mp member, Piece.Short, pieceLimit]
      omega
  | segment mode command =>
      intro piece member
      have token := (drawing.path.token command.operation mode.orAbsolute).utf8ByteSize_text_le
      have coordinates := command.utf8ByteSize_coordinates_le
      rw [List.mem_singleton.mp member, Piece.Short, pieceLimit, String.utf8ByteSize_append]
      omega

theorem Instruction.plan_modest (instruction : Instruction) :
    (instruction.plan tools drawing).Modest := by
  cases instruction with
  | setting change => exact change.plan_modest
  | motion move => exact move.plan_modest
  | shape figure => exact figure.plan_modest
  | path step => exact step.plan_modest
  | bracket edge => exact edge.plan_modest
  | comment text => exact Plan.modest_line _ _

/-- An encoder may run out of memory, but no call plans a piece that is too long. -/
theorem Call.plan?_cases_modest {call : Call} {plan : Plan}
    (planned : call.plan? tools drawing = some plan) :
    plan.Modest ∨ plan = .refuse .outOfMemory ∧ ∃ picture,
      tools.encode picture = .error .outOfMemory := by
  cases call with
  | instruct instruction =>
      cases planned
      exact .inl instruction.plan_modest
  | accent kind color =>
      cases planned
      exact .inl (Drawing.update_modest ..)
  | composite placement picture =>
      rcases composite_plan_cases planned with rfl | ⟨failure, refused, rfl⟩ | ⟨encoded, rfl⟩
      · exact .inl Failure.noConfusion
      · by_cases full : failure = .outOfMemory
        · subst full
          exact .inr ⟨rfl, picture, refused⟩
        · exact .inl full
      · exact .inl (Plan.modest_line _ _)
  | render _ | dropProgram | clear | clearError => cases planned

theorem Call.plan?_modest {call : Call} {plan : Plan} (roomy : tools.Roomy)
    (planned : call.plan? tools drawing = some plan) : plan.Modest := by
  rcases Call.plan?_cases_modest planned with modest | ⟨-, picture, full⟩
  · exact modest
  · exact (roomy picture full).elim

theorem Call.plan?_short {call : Call} {pieces : List Piece} {change : Change}
    (planned : call.plan? tools drawing = some (.write pieces change)) :
    ∀ piece ∈ pieces, piece.Short := by
  rcases Call.plan?_cases_modest planned with modest | ⟨refused, -⟩
  · exact modest
  · cases refused

end Plans

/-- The buffer that a plan leads to if it is carried out to its end, and its change. -/
inductive Plan.Writes (drawing : Drawing) : Plan → Buffer → Change → Prop
  | write {pieces : List Piece} {change : Change} :
      Writes drawing (.write pieces change)
        (pieces.foldl (Buffer.wrote drawing.layout) drawing.buffer) change
  | close {text : String} {change : Change} :
      Writes drawing (.close text change) (drawing.buffer.indentOut.extended (text ++ "\n")) change

section Writing

variable {drawing : Drawing} {plan : Plan} {buffer : Buffer} {change : Change}

theorem Plan.Writes.run_poisoned (writes : plan.Writes drawing buffer change)
    (poisoned : drawing.poisoned = true) : plan.run drawing = drawing.fail .poisoned := by
  cases writes <;> rw [run, if_pos poisoned]

theorem Plan.Writes.run_ok (writes : plan.Writes drawing buffer change) (modest : plan.Modest)
    (usable : drawing.poisoned = false) (room : drawing.layout.HasRoom buffer.size) :
    plan.run drawing = (change.apply { drawing with buffer := buffer }, .done) := by
  cases writes with
  | write =>
      obtain ⟨count, put⟩ := Buffer.putAll_eq_ok modest room
      rw [run, usable, if_neg Bool.false_ne_true, put]
  | close =>
      obtain ⟨count, appended⟩ := Buffer.append_eq_ok room
      rw [run, usable, if_neg Bool.false_ne_true, appended]

theorem Plan.Writes.run_full (writes : plan.Writes drawing buffer change) (modest : plan.Modest)
    (usable : drawing.poisoned = false) (start : drawing.layout.HasRoom drawing.buffer.size)
    (full : ¬ drawing.layout.HasRoom buffer.size) :
    (plan.run drawing).2 = .failed .outOfMemory := by
  cases writes with
  | write =>
      have failed := Buffer.putAll_eq_error modest start full
      rw [run, usable, if_neg Bool.false_ne_true]
      split
      · rename_i put
        rw [put] at failed
        cases failed
      · rename_i put
        rw [put] at failed
        cases failed
        rfl
  | close =>
      rw [run, usable, if_neg Bool.false_ne_true, Buffer.append_eq_error full]
      rfl

theorem Plan.run_close {text : String} (unlimited : drawing.layout.limit = none)
    (usable : drawing.poisoned = false) :
    Plan.run drawing (.close text change) =
      (change.apply { drawing with
        buffer := drawing.buffer.indentOut.extended (text ++ "\n") }, .done) :=
  Writes.close.run_ok trivial usable (Layout.hasRoom_of_unlimited unlimited _)

theorem Plan.run_line {text : String} (unlimited : drawing.layout.limit = none)
    (usable : drawing.poisoned = false) :
    Plan.run drawing (.line text change) =
      (change.apply { drawing with buffer := drawing.buffer.extended (text ++ "\n") }, .done) :=
  Writes.write.run_ok (Plan.modest_line text change) usable
    (Layout.hasRoom_of_unlimited unlimited _)

/-- Two drawings without a byte limit that both can be used, or both cannot, carry out plans that
write to the same outcome.  So a relation between them is kept if the writing keeps it. -/
theorem Plan.Writes.run_related {related : Drawing → Drawing → Prop} {first second : Drawing}
    {plan' : Plan} {buffer' : Buffer} {change' : Change}
    (writes : plan.Writes first buffer change) (writes' : plan'.Writes second buffer' change')
    (modest : plan.Modest) (modest' : plan'.Modest) (unlimited : first.layout.limit = none)
    (unlimited' : second.layout.limit = none) (poisoned : first.poisoned = second.poisoned)
    (failed : related (first.record .poisoned) (second.record .poisoned))
    (written : first.poisoned = false → related (change.apply { first with buffer := buffer })
      (change'.apply { second with buffer := buffer' })) :
    (plan.run first).2 = (plan'.run second).2 ∧
      related (plan.run first).1 (plan'.run second).1 := by
  cases state : first.poisoned with
  | true =>
      rw [writes.run_poisoned state, writes'.run_poisoned (poisoned ▸ state)]
      exact ⟨rfl, failed⟩
  | false =>
      rw [writes.run_ok modest state (Layout.hasRoom_of_unlimited unlimited _),
        writes'.run_ok modest' (poisoned ▸ state) (Layout.hasRoom_of_unlimited unlimited' _)]
      exact ⟨rfl, written state⟩

end Writing

end Quill
