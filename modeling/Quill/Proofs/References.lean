import Quill.Proofs.Beside
import Quill.Proofs.ClipPaths

/-!
# References

A context refers to patterns and clip paths by name.  It is checked when the reference is set that
there is something of that name, and nothing takes it away as long as the reference is held: no
call but a rendering can remove an artifact, and finished clip paths are forgotten only together
with all contexts.
-/

namespace Quill

/-- A rasterizer that keeps every artifact, though perhaps with another text, also if it fails. -/
def Rasterizer.Additive (rasterizer : Rasterizer) : Prop :=
  ∀ (canvas : Canvas) (program : String) (context : Context) (key : String),
    (canvas.artifact? key).isSome →
      ((rasterizer canvas program context).1.artifact? key).isSome

/-- A call that hands the canvas to no rasterizer that takes artifacts away. -/
def Call.Additive : Call → Prop
  | .render rasterizer => rasterizer.Additive
  | _ => True

/-- The references of a context lead to published patterns and finished clip paths. -/
structure Context.Anchored (canvas : Canvas) (clipPaths : Text.Names) (context : Context) :
    Prop where
  paint : ∀ side id, (context.paint side).pattern = some id →
    (canvas.artifact? (patternKey id)).isSome
  clipPath : ∀ id, context.clipPath = some id → clipPaths.contains id = true

/-- The references of all contexts lead somewhere. -/
def Drawing.Anchored (drawing : Drawing) : Prop :=
  ∀ context ∈ drawing.contexts.toList, context.Anchored drawing.canvas drawing.clipPaths

section Contexts

variable {canvas canvas' : Canvas} {clipPaths clipPaths' : Text.Names} {context context' : Context}
  {side : Side} {paint : Paint} {id url : String} {tools : Tools} {drawing : Drawing}

namespace Context.Anchored

theorem mono (anchored : context.Anchored canvas clipPaths)
    (published : ∀ key, (canvas.artifact? (patternKey key)).isSome →
      (canvas'.artifact? (patternKey key)).isSome)
    (finished : ∀ id, clipPaths.contains id = true → clipPaths'.contains id = true) :
    context.Anchored canvas' clipPaths' :=
  ⟨fun side id held => published id (anchored.paint side id held),
    fun id held => finished id (anchored.clipPath id held)⟩

theorem congr (anchored : context.Anchored canvas clipPaths)
    (paint : ∀ side, context'.paint side = context.paint side)
    (clipPath : context'.clipPath = context.clipPath) : context'.Anchored canvas clipPaths := by
  refine ⟨fun side => ?_, ?_⟩
  · rw [paint]
    exact anchored.paint side
  · rw [clipPath]
    exact anchored.clipPath

theorem setPaint (anchored : context.Anchored canvas clipPaths)
    (found : ∀ id, paint.pattern = some id → (canvas.artifact? (patternKey id)).isSome) :
    (context.setPaint side paint).Anchored canvas clipPaths := by
  constructor
  · intro other id held
    by_cases same : other = side
    · subst same
      rw [paint_setPaint] at held
      exact found id held
    · rw [context.paint_setPaint_other same] at held
      exact anchored.paint other id held
  · cases side <;> exact anchored.clipPath

end Context.Anchored

theorem Context.anchored_default : Context.Anchored canvas clipPaths {} := by
  constructor
  · intro side id held
    cases side <;> cases held
  · intro id held
    cases held

theorem Drawing.patternReference_published (found : drawing.patternReference url = .ok id) :
    (drawing.canvas.artifact? (patternKey id)).isSome := by
  simp only [patternReference, bind, Except.bind] at found
  split at found
  · cases found
  split at found
  · split at found
    · cases found
      assumption
    · cases found
  · cases found

/-- An edit keeps references or sets one that was looked up. -/
theorem Setting.edit?_anchored {setting : Setting} {edit : Edit}
    (edits : setting.edit? tools drawing = .ok edit)
    (anchored : drawing.context.Anchored drawing.canvas drawing.clipPaths) :
    (edit.change drawing.context).Anchored drawing.canvas drawing.clipPaths := by
  have untouched (paint : ∀ side, .paint side ∉ edit.target.touched)
      (clipPath : .clipPath ∉ edit.target.touched) :
      (edit.change drawing.context).Anchored drawing.canvas drawing.clipPaths := by
    have clip := Setting.edit?_frame drawing.context edits clipPath
    refine anchored.congr (fun side => ?_) clip
    have held := Setting.edit?_frame drawing.context edits (paint side)
    exact held
  cases setting with
  | paintName side name =>
      obtain ⟨color, -, rfl⟩ := exists_of_map_ok edits
      exact anchored.setPaint nofun
  | paint side color =>
      cases edits
      exact anchored.setPaint nofun
  | paintPattern side url =>
      obtain ⟨id, found, rfl⟩ := exists_of_map_ok edits
      refine anchored.setPaint fun other held => ?_
      cases held
      exact Drawing.patternReference_published found
  | paintOpacity side value =>
      cases edits
      exact anchored.setPaint fun id held => anchored.paint side id held
  | clipPath name =>
      obtain ⟨id, found, rfl⟩ := exists_of_map_ok edits
      refine ⟨anchored.paint, fun other held => ?_⟩
      cases held
      exact (Drawing.clipReference_ok found).2
  | label index text | accentName accent name =>
      obtain ⟨value, -, rfl⟩ := exists_of_map_ok edits
      exact untouched (by simp [Attribute.touched, Context.labelEdit, Context.accentEdit])
        (by simp [Attribute.touched, Context.labelEdit, Context.accentEdit])
  | _ =>
      cases edits
      exact untouched (by simp [Attribute.touched, Context.clipUnitsEdit])
        (by simp [Attribute.touched, Context.clipUnitsEdit])

end Contexts

section Steps

variable {tools : Tools} {drawing after first last : Drawing} {call : Call} {plan : Plan}
  {outcome : Outcome} {change : Context → Context} {events : List Event}

theorem Call.updates_anchored (planned : call.plan? tools drawing = some plan)
    (updates : plan.Updates change)
    (anchored : drawing.context.Anchored drawing.canvas drawing.clipPaths) :
    (change drawing.context).Anchored drawing.canvas drawing.clipPaths := by
  rcases Call.updates_cases planned updates with
    ⟨setting, edit, -, edits, rfl⟩ | ⟨accent, color, -, rfl⟩ | ⟨motion, -, rfl⟩
  · rw [Edit.change_of_updates updates]
    exact Setting.edit?_anchored edits anchored
  · rw [Edit.change_of_updates updates]
    cases accent <;> exact anchored.congr (fun side => by cases side <;> rfl) rfl
  · simp only [Motion.plan] at updates
    split at updates
    · cases updates
    · cases updates
      exact anchored.congr (fun side => by cases side <;> rfl) rfl

namespace Drawing.Anchored

theorem context (anchored : drawing.Anchored) :
    drawing.context.Anchored drawing.canvas drawing.clipPaths :=
  anchored _ drawing.contexts.current_mem

theorem modify (anchored : drawing.Anchored)
    (top : (change drawing.context).Anchored drawing.canvas drawing.clipPaths) :
    Anchored { drawing with contexts := drawing.contexts.modify change } := by
  intro context member
  rw [ContextStack.toList_modify, List.mem_cons] at member
  rcases member with rfl | below
  · exact top
  · exact anchored context (List.mem_of_mem_tail below)

/-- Contexts stay anchored if none is new, no artifact goes and no clip path is forgotten. -/
theorem mono (anchored : drawing.Anchored)
    (contexts : ∀ context ∈ after.contexts.toList, context ∈ drawing.contexts.toList)
    (published : ∀ id, (drawing.canvas.artifact? (patternKey id)).isSome →
      (after.canvas.artifact? (patternKey id)).isSome)
    (finished : ∀ id, drawing.clipPaths.contains id = true →
      after.clipPaths.contains id = true) : after.Anchored :=
  fun context member => (anchored context (contexts context member)).mono published finished

theorem step (anchored : drawing.Anchored) (additive : call.Additive)
    (effect : Effect tools drawing call after outcome) : after.Anchored := by
  cases effect with
  | kept planned plain | aborted flat => exact anchored
  | failed planned | refused poisoned | dropped | forgotten => exact anchored
  | adjusted planned plain =>
      exact anchored.modify (Call.updates_anchored planned .adjust anchored.context)
  | wrote planned plain inner usable =>
      cases inner with
      | context change =>
          exact anchored.modify (Call.updates_anchored planned (.write _) anchored.context)
      | nothing | path state => exact anchored
  | opened opens usable =>
      cases opens with
      | scope =>
          refine anchored.mono (fun context member => ?_) (fun _ => id) fun _ => id
          rcases List.mem_cons.mp member with rfl | below
          · exact drawing.contexts.current_mem
          · exact below
      | _ => exact anchored
  | closed closes usable =>
      cases closes with
      | scope nested =>
          obtain ⟨top, outer, popped, -⟩ := ContextStack.pop?_of_nested nested
          simp only [Change.apply, popped]
          refine anchored.mono (fun context member => ?_) (fun _ => id) fun _ => id
          rw [ContextStack.toList_of_pop? popped] at member
          exact List.mem_of_mem_tail member
      | @pattern capture opened =>
          refine anchored.mono (fun _ => id) (fun id published => ?_) fun _ => id
          simp [Change.apply, refilter, Canvas.isSome_publish, published]
      | clipPath opened =>
          refine anchored.mono (fun _ => id) (fun _ => id) fun id finished => ?_
          simp [Change.apply, refilter, Text.Table.contains_insert, finished]
      | defs opened => exact anchored
  | rendered usable draws =>
      refine anchored.mono (fun _ => id) (fun id published => ?_) fun _ => id
      have kept := additive drawing.canvas drawing.program drawing.context _ published
      rwa [draws] at kept
  | misdrawn usable draws =>
      refine anchored.mono (fun _ => id) (fun id published => ?_) fun _ => id
      have kept := additive drawing.canvas drawing.program drawing.context _ published
      rwa [draws] at kept
  | cleared =>
      intro context member
      have anew : context = {} := List.mem_singleton.mp member
      rw [anew]
      exact Context.anchored_default

theorem run (reachable : Reachable first) (anchored : first.Anchored)
    (run : Run first events last) (additive : ∀ event ∈ events, event.call.Additive) :
    last.Anchored := by
  induction run with
  | stay drawing => exact anchored
  | step called _ ih =>
      obtain ⟨here, later⟩ := List.forall_mem_cons.mp additive
      exact ih (reachable.of_call called) (anchored.step here (reachable.effect called)) later

end Drawing.Anchored

theorem Drawing.anchored_start (settings : Settings) (canvas : Canvas) :
    (start settings canvas).Anchored := by
  intro context member
  rw [List.mem_singleton.mp member]
  exact Context.anchored_default

/-- Only a finished clip path can be clipped to. -/
theorem Drawing.finished_of_clipPath {id : String}
    (done : (drawing.call tools (.instruct (.setting (.clipPath id)))).2 = .done) :
    drawing.clipPaths.contains id = true := by
  cases found : drawing.clipReference id with
  | ok name =>
      obtain ⟨rfl, finished⟩ := clipReference_ok found
      exact finished
  | error failure =>
      have refused : (Setting.clipPath id).plan tools drawing = .refuse failure := by
        rw [Setting.plan_eq_edit, Setting.edit?, found]
        rfl
      rw [Drawing.call, Instruction.plan, refused] at done
      cases done

end Steps

/-- No reference dangles.  In every drawing that is reached with rasterizers that take no artifact
away, the patterns that contexts refer to are published and the clip paths that they refer to are
finished.  The finished clip paths are those that, since the drawing was cleared, were opened and
closed by the closing that matches; a clip path that is still open can be referred to only if an
earlier one of its name was finished. -/
theorem references_never_dangle {settings : Settings} {canvas : Canvas} {events : List Event}
    {drawing : Drawing} (run : Run (Drawing.start settings canvas) events drawing)
    (additive : ∀ event ∈ events, event.call.Additive) :
    (∀ context ∈ drawing.contexts.toList,
      (∀ side id, (context.paint side).pattern = some id →
        (drawing.canvas.artifact? (patternKey id)).isSome) ∧
      ∀ id, context.clipPath = some id → id ∈ drawing.clipPaths.keys) ∧
      (∀ id, id ∈ drawing.clipPaths.keys ↔ ClipFinished id events) ∧
      ∀ (tools : Tools) (id : String),
        (drawing.call tools (.instruct (.setting (.clipPath id)))).2 = .done →
          ClipFinished id events := by
  have reachable := Reachable.start settings canvas
  have anchored := (Drawing.anchored_start settings canvas).run reachable run additive
  refine ⟨?_, fun id => run.mem_clipPaths_iff, ?_⟩
  · intro context member
    refine ⟨(anchored context member).paint, fun id held => ?_⟩
    rw [Text.Table.mem_keys]
    exact (anchored context member).clipPath id held
  · intro tools id done
    rw [← run.mem_clipPaths_iff, Text.Table.mem_keys]
    exact Drawing.finished_of_clipPath done

/-- A clip path is finished inside another, which stays open; a rasterizer leaves a mark. -/
theorem references_never_dangle_inside_clip_path :
    let bracket (edge : Bracket) : Call := .instruct (.bracket edge)
    let setting (setting : Setting) : Call := .instruct (.setting setting)
    let mark : Rasterizer := fun canvas _ _ => (canvas.setArtifact "drawn" "", none)
    let calls := [bracket (.openPattern "p" 0 0 8 8), bracket .closePattern,
      bracket (.openClipPath "outer"), bracket (.openClipPath "inner"), bracket .closeClipPath,
      setting (.clipPath "inner"), setting (.paintPattern .fill "#p"), .render mark,
      bracket .openScope, setting (.clipPath "outer")]
    let start := Drawing.start {} ⟨64, 64, .empty⟩
    let events := start.events {} calls
    let drawing := start.calls {} calls
    drawing.context.clipPath = some "inner" ∧
      (drawing.context.paint .fill).pattern = some "p" ∧
      (drawing.canvas.artifact? (patternKey "p")).isSome ∧ ClipFinished "inner" events ∧
      ¬ ClipFinished "outer" events := by
  intro bracket setting mark calls start events drawing
  have marks : mark.Additive := by
    intro canvas program context key published
    simp only [mark, Canvas.artifact?_setArtifact]
    split
    · rfl
    · exact published
  have additive : ∀ call ∈ calls, call.Additive := by
    simp [calls, bracket, setting, Call.Additive, marks]
  have run : Run start events drawing := .calls {} start calls
  have holds := references_never_dangle run fun event member =>
    additive event.call (Drawing.call_mem_of_mem_events member)
  have clip : drawing.context.clipPath = some "inner" := by decide +kernel
  have fill : (drawing.context.paint .fill).pattern = some "p" := by decide +kernel
  obtain ⟨paints, clips⟩ := holds.1 drawing.context drawing.contexts.current_mem
  refine ⟨clip, fill, paints .fill "p" fill, (holds.2.1 "inner").mp (clips "inner" clip), ?_⟩
  rw [← holds.2.1 "outer"]
  decide +kernel

end Quill
