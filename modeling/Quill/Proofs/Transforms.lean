import Quill.Proofs.Bracketless
import Quill.Proofs.Capture
import Quill.Proofs.PathWords
import Quill.Proofs.Scopes

/-!
# Transforms and the motions behind them

A motion is written as an instruction of its own and multiplied into the transform of the context
in force; clip units relative to an object with an area are multiplied into it as well.  Beside a
drawing one can follow the maps of all these calls, context by context: a new scope goes on from
those of the scope around it, and a scope that is closed takes its own with it.  The transform of
every context is the product of its maps, in their order, whatever the arithmetic of doubles does.
-/

namespace Quill

/-- The product of maps, each put in front of those before it. -/
def Transform.product (maps : List Transform) : Transform :=
  maps.foldl compose identity

/-- All that was appended is one line, indented as far as its place demands. -/
def Drawing.WroteLine (drawing after : Drawing) (line : String) : Prop :=
  after.program = drawing.program ++
    (spaces (drawing.buffer.indent - drawing.buffer.column) ++ (line ++ "\n"))

instance (drawing after : Drawing) (line : String) : Decidable (drawing.WroteLine after line) :=
  inferInstanceAs (Decidable (_ = _))

/-- The map that a call puts in front of the transform in force once it is done: that of a motion,
unless it is the identity, and that of the bounds, if clip units relative to an object were written
and the bounds have an area. -/
def Call.map? (drawing after : Drawing) : Call → Option Transform
  | .instruct (.motion motion) => if motion.map.isIdentity then none else some motion.map
  | .instruct (.setting (.clipUnits .objectBoundingBox)) =>
    if drawing.WroteLine after "clip-units objectBoundingBox" ∧
        0 < drawing.context.bounds.area then
      some drawing.context.bounds.unitMap
    else none
  | _ => none

namespace Transform

/-- The maps of all contexts behind a call, those of the innermost first.  A new scope has the maps
of the one around it; a call that is not done leaves them all as they are. -/
def track (call : Call) (outcome : Outcome) (map? : Option Transform)
    (held : List (List Transform)) : List (List Transform) :=
  match outcome, call with
  | .done, .instruct (.bracket .openScope) => held.take 1 ++ held
  | .done, .instruct (.bracket .closeScope) => held.tail
  | .done, _ => held.modifyHead (· ++ map?.toList)
  | .failed _, _ | .aborted _, _ => held

end Transform

/-- The maps of all contexts behind some requests. -/
def Drawing.maps (drawing : Drawing) (held : List (List Transform)) :
    List Request → List (List Transform)
  | [] => held
  | request :: rest =>
    let served := drawing.serve request
    served.1.maps
      (Transform.track request.call served.2 (request.call.map? drawing served.1) held) rest

/-- The maps of all contexts, kept up with a stack of contexts. -/
def ContextStack.Follows (contexts : ContextStack) (held : List (List Transform)) : Prop :=
  contexts.toList.map Context.transform = held.map Transform.product

namespace Motion

def word : Motion → String
  | .affine _ => "affine"
  | .rotate _ => "rotate"
  | .scale _ _ => "scale"
  | .skewX _ => "skewX"
  | .skewY _ => "skewY"
  | .translate _ _ => "translate"

def groups : Motion → List String
  | .affine map => map.coefficients.map Number.coefficient
  | .rotate degrees | .skewX degrees | .skewY degrees => [Number.coordinate degrees]
  | .scale x y | .translate x y => [Number.coordinatePair x y]

def arguments : Motion → List String
  | .affine map => map.coefficients.map Number.coefficient
  | .rotate degrees | .skewX degrees | .skewY degrees => [Number.coordinate degrees]
  | .scale x y | .translate x y => [Number.coordinate x, Number.coordinate y]

theorem text_eq_words (motion : Motion) :
    motion.text = " ".intercalate (motion.word :: motion.groups) := by
  cases motion <;> rw [← String.toList_inj] <;> simp [text, word, groups, Transform.coefficients]

theorem singleLine_text (motion : Motion) : SingleLine motion.text := by
  rw [text_eq_words]
  refine singleLine_intercalate (by decide) (List.forall_mem_cons.mpr ⟨?_, ?_⟩)
  · cases motion <;> dsimp only [word] <;> decide
  · cases motion <;>
      simp [groups, Transform.coefficients, singleLine_coordinate, singleLine_coordinatePair,
        Number.coefficient, singleLine_significant]

end Motion

namespace Path

theorem coefficient_isGroup (x : Float) : IsGroup (Number.coefficient x).toList := by
  have written := Number.significant_written 6 x
  exact ⟨fun character member => .inl (written.printed character member), written.leading⟩

theorem splitGroup_coefficient (x : Float) :
    splitGroup (Number.coefficient x).toList = [Number.coefficient x] := by
  have written := Number.significant_written 6 x
  have apart : ∀ character ∈ (Number.coefficient x).toList, character ≠ ',' :=
    fun character member => (isPrinted_apart (written.printed character member)).2.1
  rw [splitGroup_of_no_comma apart, String.ofList_toList]

end Path

namespace Motion

theorem words_isWord (motion : Motion) :
    ∀ word ∈ motion.word :: motion.groups, Path.IsWord word.toList := by
  refine List.forall_mem_cons.mpr ⟨?_, ?_⟩
  · cases motion <;> dsimp only [word] <;>
      exact ⟨by decide, List.forall_iff_forall_mem.mp (by decide), by decide⟩
  · cases motion <;>
      simp [groups, Transform.coefficients, (Path.coordinate_isGroup _).isWord,
        (Path.coordinatePair_isGroup _ _).isWord, (Path.coefficient_isGroup _).isWord]

theorem splitGroup_word (motion : Motion) :
    Path.splitGroup motion.word.toList = [motion.word] := by
  cases motion <;> dsimp only [word] <;> decide

theorem flatMap_splitGroup (motion : Motion) :
    (motion.groups.map String.toList).flatMap Path.splitGroup = motion.arguments := by
  cases motion <;>
    simp [groups, arguments, Transform.coefficients, Path.splitGroup_coordinate,
      Path.splitGroup_coordinatePair, Path.splitGroup_coefficient]

/-- Between blanks and commas a motion is written as its word and its own parameters. -/
theorem words_text (motion : Motion) :
    (Path.words motion.text.toList).flatMap Path.splitGroup = motion.word :: motion.arguments := by
  have isWord : ∀ word ∈ (motion.word :: motion.groups).map String.toList, Path.IsWord word := by
    intro word member
    obtain ⟨text, among, rfl⟩ := List.mem_map.mp member
    exact motion.words_isWord text among
  have none : Path.Apart [] := fun character head => nomatch head
  have words : Path.words motion.text.toList =
      (motion.word :: motion.groups).map String.toList := by
    have split := Path.words_intercalate isWord none
    rw [List.append_nil] at split
    rw [text_eq_words, String.toList_intercalate]
    exact split.trans (List.append_nil _)
  rw [words, List.map_cons, List.flatMap_cons, splitGroup_word, flatMap_splitGroup]
  rfl

end Motion

namespace Transform

variable {held : List (List Transform)} {call : Call} {outcome : Outcome} {map? : Option Transform}

theorem product_append (maps : List Transform) (map? : Option Transform) :
    product (maps ++ map?.toList) = map?.toList.foldl compose (product maps) :=
  List.foldl_append

theorem track_plain (plain : call.Plain) :
    track call .done map? held = held.modifyHead (· ++ map?.toList) := by
  unfold track
  split
  · exact (plain _ rfl).elim
  · exact (plain _ rfl).elim
  · rfl
  all_goals rename_i impossible; cases impossible

theorem track_failed (failure : Failure) : track call (.failed failure) map? held = held := by
  cases call <;> rfl

theorem track_aborted (promise : String) : track call (.aborted promise) map? held = held := by
  cases call <;> rfl

end Transform

namespace ContextStack.Follows

variable {contexts outer : ContextStack} {held : List (List Transform)}

theorem keep (follows : contexts.Follows held) :
    contexts.Follows (held.modifyHead (· ++ (none : Option Transform).toList)) := by
  cases held with
  | nil => exact follows
  | cons maps rest =>
      rw [List.modifyHead_cons, Option.toList_none, List.append_nil]
      exact follows

theorem modify {change : Context → Context} {map? : Option Transform}
    (follows : contexts.Follows held)
    (moved : (change contexts.current).transform =
      map?.toList.foldl Transform.compose contexts.current.transform) :
    (contexts.modify change).Follows (held.modifyHead (· ++ map?.toList)) := by
  rw [Follows, toList_eq_cons] at follows
  rw [Follows, toList_modify]
  cases held with
  | nil => cases follows
  | cons maps rest =>
      obtain ⟨top, below⟩ := List.cons_eq_cons.mp follows
      rw [List.modifyHead_cons, List.map_cons, List.map_cons, Transform.product_append, moved, top,
        below]

theorem push (follows : contexts.Follows held) : contexts.push.Follows (held.take 1 ++ held) := by
  rw [Follows, toList_eq_cons] at follows
  rw [Follows, toList_push, toList_eq_cons]
  cases held with
  | nil => cases follows
  | cons maps rest =>
      obtain ⟨top, -⟩ := List.cons_eq_cons.mp follows
      exact List.cons_eq_cons.mpr ⟨top, follows⟩

theorem pop {top : Context} (follows : contexts.Follows held)
    (popped : contexts.pop? = some (top, outer)) : outer.Follows held.tail := by
  rw [Follows, toList_of_pop? popped, List.map_tail, List.map_tail, follows]

theorem current (follows : contexts.Follows held) :
    contexts.current.transform = Transform.product (held.headD []) := by
  rw [Follows, toList_eq_cons] at follows
  cases held with
  | nil => cases follows
  | cons maps rest => exact (List.cons_eq_cons.mp follows).1

end ContextStack.Follows

section Steps

variable {tools : Tools} {drawing after : Drawing} {call : Call} {outcome : Outcome} {plan : Plan}
  {change : Context → Context} {held : List (List Transform)}

theorem Drawing.not_wroteLine_self (line : String) : ¬ drawing.WroteLine drawing line := by
  intro wrote
  have empty : "" = spaces (drawing.buffer.indent - drawing.buffer.column) ++ (line ++ "\n") :=
    String.append_right_inj _ |>.mp (String.append_empty.trans wrote)
  have last := congrArg String.toList empty
  simp at last

theorem Change.wroteLine_apply (change : Change) (line : String) :
    drawing.WroteLine
      (change.apply { drawing with buffer := drawing.buffer.extended (line ++ "\n") }) line := by
  rw [Drawing.WroteLine, change.apply_program]
  exact (drawing.buffer.extended_grows _).text

/-- Only clip units relative to an object move the transform among the settings. -/
theorem Setting.edit?_transform {setting : Setting} {edit : Edit}
    (edits : setting.edit? tools drawing = .ok edit)
    (other : setting ≠ .clipUnits .objectBoundingBox) (context : Context) :
    (edit.change context).transform = context.transform := by
  have untouched (apart : .transform ∉ edit.target.touched) :
      (edit.change context).transform = context.transform := by
    have kept := Setting.edit?_frame context edits apart
    exact kept
  cases setting with
  | paintName | paintPattern | accentName | label | clipPath =>
      obtain ⟨value, -, rfl⟩ := exists_of_map_ok edits
      exact untouched fun member => Attribute.noConfusion (List.mem_singleton.mp member)
  | clipUnits units =>
      cases edits
      cases units with
      | objectBoundingBox => exact (other rfl).elim
      | _ => rfl
  | _ =>
      cases edits
      exact untouched fun member => Attribute.noConfusion (List.mem_singleton.mp member)

theorem Call.map?_kept (planned : call.plan? tools drawing = some .keep) :
    call.map? drawing drawing = none := by
  fun_cases Call.map? drawing drawing call with
  | case1 motion identity => rfl
  | case2 motion moves =>
      rw [plan?, Instruction.plan, Motion.plan, if_neg moves] at planned
      cases planned
  | case3 wrote => exact (drawing.not_wroteLine_self _ wrote.1).elim
  | case4 unwritten => rfl
  | case5 => rfl

theorem Call.map?_of_still (unmoved : ∀ motion, call ≠ .instruct (.motion motion))
    (unrelated : call ≠ .instruct (.setting (.clipUnits .objectBoundingBox))) :
    call.map? drawing after = none := by
  fun_cases Call.map? drawing after call with
  | case1 motion => exact (unmoved motion rfl).elim
  | case2 motion => exact (unmoved motion rfl).elim
  | case3 wrote => exact (unrelated rfl).elim
  | case4 unwritten => exact (unrelated rfl).elim
  | case5 => rfl

/-- An instruction that is written and leaves the contexts alone has no map. -/
theorem Call.map?_of_written {pieces : List Piece} {other : Change}
    (planned : call.plan? tools drawing = some (.write pieces other))
    (still : ∀ update, other ≠ .context update) : call.map? drawing after = none := by
  refine Call.map?_of_still ?_ ?_
  · rintro motion rfl
    rw [plan?, Instruction.plan, Motion.plan] at planned
    split at planned
    · cases planned
    · cases planned
      exact still _ rfl
  · rintro rfl
    rw [plan?, Instruction.plan, Setting.plan, Drawing.clipUnitsPlan, Drawing.update] at planned
    split at planned
    · cases planned
    · cases planned
      exact still _ rfl

/-- A change of the context in force puts the map of the call in front of its transform. -/
theorem Call.transform_of_updates (planned : call.plan? tools drawing = some plan)
    (updates : plan.Updates change)
    (wrote : ∀ line, plan = .line line (.context change) → drawing.WroteLine after line) :
    (change drawing.context).transform =
      (call.map? drawing after).toList.foldl Transform.compose drawing.context.transform := by
  rcases Call.updates_cases planned updates with
    ⟨setting, edit, rfl, edits, rfl⟩ | ⟨accent, color, rfl, rfl⟩ | ⟨motion, rfl, rfl⟩
  · rw [Edit.change_of_updates updates]
    by_cases related : setting = .clipUnits .objectBoundingBox
    · subst related
      cases edits
      have written : drawing.WroteLine after "clip-units objectBoundingBox" := by
        cases written : (drawing.context.clipUnitsEdit .objectBoundingBox).plan drawing with
        | write pieces other =>
            obtain ⟨spelling, spelled, rfl, rfl⟩ := Edit.plan_write written
            cases spelled
            refine wrote _ (written.trans ?_)
            rw [Edit.change_of_updates updates]
            rfl
        | adjust other =>
            obtain ⟨unspelled, -⟩ := Edit.plan_adjust written
            cases unspelled
        | refuse failure | keep | close line other =>
            rw [written] at updates
            cases updates
      simp only [map?, written, true_and, Context.clipUnitsEdit]
      split <;> rfl
    · have still : map? drawing after (.instruct (.setting setting)) = none := by
        refine Call.map?_of_still ?_ ?_
        · intro motion equal
          cases equal
        · intro equal
          cases equal
          exact related rfl
      rw [still]
      exact Setting.edit?_transform edits related _
  · rw [Edit.change_of_updates updates]
    cases accent <;> rfl
  · rw [Motion.plan] at updates
    split at updates
    · cases updates
    · rename_i moves
      cases updates
      rw [map?, if_neg moves]
      rfl

/-- Every call but one that clears the drawing keeps the maps up with the contexts. -/
theorem Effect.follows (effect : Effect tools drawing call after outcome)
    (uncleared : call ≠ .clear) (follows : drawing.contexts.Follows held) :
    after.contexts.Follows
      (Transform.track call outcome (call.map? drawing after) held) := by
  cases effect with
  | failed planned =>
      rw [Transform.track_failed]
      exact follows
  | kept planned plain =>
      rw [Transform.track_plain plain, Call.map?_kept planned]
      exact follows.keep
  | adjusted planned plain =>
      rw [Transform.track_plain plain]
      refine follows.modify (Call.transform_of_updates planned .adjust ?_)
      intro line equal
      cases equal
  | wrote planned plain inner usable =>
      rw [Transform.track_plain plain]
      cases inner with
      | context change =>
          refine follows.modify (Call.transform_of_updates planned (.write _) ?_)
          intro line equal
          cases equal
          exact Change.wroteLine_apply (.context change) line
      | nothing | path state =>
          rw [Call.map?_of_written planned fun _ => Change.noConfusion]
          exact follows.keep
  | opened opens usable =>
      cases opens with
      | scope => exact follows.push
      | pattern vacant | clipPath | defs => exact follows.keep
  | closed closes usable =>
      cases closes with
      | scope nested =>
          obtain ⟨top, outer, popped, -⟩ := ContextStack.pop?_of_nested nested
          simp only [Change.apply, popped]
          exact follows.pop popped
      | pattern opened | clipPath opened | defs opened => exact follows.keep
  | aborted flat =>
      rw [Transform.track_aborted]
      exact follows
  | refused poisoned | misdrawn usable draws =>
      rw [Transform.track_failed]
      exact follows
  | cleared => exact (uncleared rfl).elim
  | rendered usable draws | dropped | forgotten => exact follows.keep

theorem Reachable.follows {requests : List Request} (reachable : Reachable drawing)
    (uncleared : ∀ request ∈ requests, request.call ≠ .clear)
    (follows : drawing.contexts.Follows held) :
    (drawing.perform requests).contexts.Follows (drawing.maps held requests) := by
  induction requests generalizing drawing held with
  | nil => exact follows
  | cons request rest ih =>
      obtain ⟨here, later⟩ := List.forall_mem_cons.mp uncleared
      have called : drawing.call request.tools request.call = drawing.serve request := rfl
      have next := (reachable.effect called).follows here follows
      exact ih (reachable.of_serve request) later next

theorem Motion.call_of_identity {motion : Motion} (identity : motion.map.isIdentity = true) :
    drawing.call tools (.instruct (.motion motion)) = (drawing, .done) := by
  have planned : motion.plan = .keep := if_pos identity
  rw [Drawing.call, Instruction.plan, planned, Plan.run]

theorem Motion.done_of_moving {motion : Motion} (moving : motion.map.isIdentity = false)
    (called : drawing.call tools (.instruct (.motion motion)) = (after, .done)) :
    drawing.WroteLine after motion.text ∧
      after.context.transform = drawing.context.transform.mul motion.map := by
  have planned : motion.plan = .line motion.text (.context (·.composeTransform motion.map)) := by
    rw [plan, moving, if_neg Bool.false_ne_true]
  have done : motion.plan.Done drawing after := Plan.run_done called
  rw [planned] at done
  cases done with
  | write usable =>
      refine ⟨Change.wroteLine_apply _ motion.text, ?_⟩
      simp only [Change.apply, Drawing.context, ContextStack.current_modify]
      rw [Context.composeTransform, Transform.compose, moving, if_neg Bool.false_ne_true]

end Steps

/-- Through any run without clearing, the transform of every open context is the product of its
maps: of the motions, other than the identity, that were done in it or in the contexts that it was
copied from, and of the bounds that clip units were written relative to.  A motion that is the
identity does nothing at all; any other one that is done appends one instruction, which holds the
parameters of the motion and nothing else, and is multiplied into the transform in force. -/
theorem transforms_follow_motions {settings : Settings} {canvas : Canvas}
    {requests : List Request} (uncleared : ∀ request ∈ requests, request.call ≠ .clear) :
    let start := Drawing.start settings canvas
    let drawing := start.perform requests
    let maps := start.maps [[]] requests
    drawing.contexts.toList.map Context.transform = maps.map Transform.product ∧
      drawing.context.transform = Transform.product (maps.headD []) ∧
      ∀ (tools : Tools) (motion : Motion),
        let served := drawing.call tools (.instruct (.motion motion))
        (motion.map.isIdentity = true → served = (drawing, .done)) ∧
          (motion.map.isIdentity = false → served.2 = .done →
            drawing.WroteLine served.1 motion.text ∧ SingleLine motion.text ∧
              (Path.words motion.text.toList).flatMap Path.splitGroup =
                motion.word :: motion.arguments ∧
              served.1.context.transform = drawing.context.transform.mul motion.map) := by
  intro start drawing maps
  have follows : drawing.contexts.Follows maps :=
    (Reachable.start settings canvas).follows uncleared rfl
  refine ⟨follows, follows.current, ?_⟩
  intro tools motion served
  refine ⟨Motion.call_of_identity, fun moving completed => ?_⟩
  obtain ⟨wrote, moved⟩ := Motion.done_of_moving moving (Prod.ext rfl completed)
  exact ⟨wrote, motion.singleLine_text, motion.words_text, moved⟩

/-- A scope with a motion, bounds, a motion that is the identity and an inner scope that is closed
again. -/
theorem transforms_follow_motions_through_scopes :
    let instruct (instruction : Instruction) : Request := ⟨{}, .instruct instruction⟩
    let requests := [instruct (.motion (.translate 10 20)), instruct (.bracket .openScope),
      instruct (.motion (.scale 2 3)), instruct (.setting (.bounds ⟨0, 0, 4, 5⟩)),
      instruct (.setting (.clipUnits .objectBoundingBox)), instruct (.motion (.scale 1 1)),
      instruct (.bracket .openScope), instruct (.motion (.translate 0.5 0)),
      instruct (.bracket .closeScope)]
    let start := Drawing.start {} ⟨64, 64, .empty⟩
    let drawing := start.perform requests
    let maps := start.maps [[]] requests
    drawing.program = "translate 10,20\npush graphic-context\n scale 2,3\n" ++
        " clip-units objectBoundingBox\n push graphic-context\n  translate 0.5,0\n" ++
        " pop graphic-context\n" ∧
      maps.map List.length = [3, 1] ∧
      drawing.contexts.toList.map Context.transform = maps.map Transform.product := by
  intro instruct requests start drawing maps
  have uncleared : ∀ request ∈ requests, request.call ≠ .clear := by
    simp [requests, instruct]
  exact ⟨by decide +kernel, by decide +kernel, (transforms_follow_motions uncleared).1⟩

end Quill
