import Quill.Proofs.Beside
import Quill.Proofs.LimitedRun
import Quill.Proofs.Lines

/-!
# What a pattern leaves behind

A closed pattern leaves its values in the context around it.  Settings behind it look at them, so a
setting can be left out because the pattern made it.  Calls that look at no attribute that the
pattern changed append the same text as if there had been no pattern.
-/

namespace Quill

def Call.RefersTo (id : String) : Call → Prop
  | .instruct (.setting (.paintPattern _ url)) => url = "#" ++ id
  | _ => False

/-- A call that hands the program to a rasterizer. -/
def Call.Draws : Call → Prop
  | .render _ => True
  | _ => False

section References

variable {drawing first second : Drawing} {url id : String} {failure : Failure}

theorem Drawing.patternReference_ok (found : drawing.patternReference url = .ok id) :
    url = "#" ++ id := by
  simp only [patternReference, require, bind, Except.bind] at found
  split at found
  · cases found
  · rename_i required
    split at required
    · cases required
    cases required
    split at found
    · rename_i characters equal
      split at found
      · cases found
        exact String.toList_injective (by simpa using equal)
      · cases found
    · cases found

theorem Drawing.patternReference_error (refused : drawing.patternReference url = .error failure) :
    failure ≠ .poisoned := by
  simp only [patternReference, require, bind, Except.bind] at refused
  grind

theorem Drawing.patternReference_congr
    (same : ∀ name, url = "#" ++ name → (first.canvas.artifact? (patternKey name)).isSome =
      (second.canvas.artifact? (patternKey name)).isSome) :
    first.patternReference url = second.patternReference url := by
  simp only [patternReference, require, bind, Except.bind]
  split
  · rfl
  · rename_i required
    split at required
    · cases required
    cases required
    split
    · rename_i characters equal
      have reference : url = "#" ++ String.ofList characters :=
        String.toList_injective (by simpa using equal)
      rw [same _ reference]
    · rfl

/-- Without a byte limit a setting that is accepted is done, unless the drawing cannot be used. -/
theorem Plan.run_update (unlimited : drawing.layout.limit = none) (differs : Bool) (text : String)
    (change : Context → Context) :
    ((drawing.update differs text change).run drawing).2 = .done ∨
      ((drawing.update differs text change).run drawing).2 = .failed .poisoned := by
  rw [Drawing.update]
  split
  · exact .inl rfl
  cases poisoned : drawing.poisoned with
  | true => exact .inr (congrArg Prod.snd (Plan.Writes.write.run_poisoned poisoned))
  | false => exact .inl (congrArg Prod.snd (Plan.run_line unlimited poisoned))

/-- How a reference to a pattern ends tells whether the pattern was found. -/
theorem Drawing.patternReference_of_outcome {tools : Tools} {side : Side}
    (unlimited : first.layout.limit = none) (unlimited' : second.layout.limit = none)
    (same : (first.call tools (.instruct (.setting (.paintPattern side url)))).2 =
      (second.call tools (.instruct (.setting (.paintPattern side url)))).2) :
    first.patternReference url = second.patternReference url := by
  let ends (drawing : Drawing) : Outcome :=
    (drawing.call tools (.instruct (.setting (.paintPattern side url)))).2
  have refused : ∀ {drawing : Drawing} {failure : Failure},
      drawing.patternReference url = .error failure → ends drawing = .failed failure := by
    intro drawing failure missing
    simp only [ends, Drawing.call, Instruction.plan, Setting.plan, missing, Plan.checked]
    rfl
  have apart : ∀ {drawing other : Drawing} {id : String} {failure : Failure},
      drawing.layout.limit = none → drawing.patternReference url = .ok id →
      other.patternReference url = .error failure → ends drawing ≠ ends other := by
    intro drawing other id failure unlimited found missing equal
    have accepted : ends drawing = .done ∨ ends drawing = .failed .poisoned := by
      simp only [ends, Drawing.call, Instruction.plan, Setting.plan, found, Plan.checked]
      exact Plan.run_update unlimited _ _ _
    rw [equal, refused missing] at accepted
    rcases accepted with done | poisoned
    · cases done
    · cases poisoned
      exact patternReference_error missing rfl
  cases found : first.patternReference url with
  | ok id =>
      cases found' : second.patternReference url with
      | ok id' =>
          have equal := (patternReference_ok found).symm.trans (patternReference_ok found')
          rw [(String.append_right_inj "#").mp equal]
      | error failure => exact (apart unlimited found found' same).elim
  | error failure =>
      cases found' : second.patternReference url with
      | ok id => exact (apart unlimited' found' found same.symm).elim
      | error failure' =>
          have equal := (refused found).symm.trans (same.trans (refused found'))
          cases equal
          rfl

end References

section Later

variable {kept : Attribute → Prop} {known : String → Prop} {first second : Drawing}
  {requests : List Request}

namespace Drawing.Beside

theorem patternReference {id url : String} (beside : first.Beside kept (· ≠ id) second)
    (elsewhere : url ≠ "#" ++ id) :
    first.patternReference url = second.patternReference url := by
  refine patternReference_congr ?_
  rintro name rfl
  refine beside.artifacts name ?_
  rintro rfl
  exact elsewhere rfl

theorem outcomes {id : String} (beside : first.Beside kept (· ≠ id) second)
    (untransformed : ¬ kept .transform)
    (inputs : ∀ request ∈ requests, ∀ kind ∈ request.call.inputs, kept kind)
    (apart : ∀ request ∈ requests, ¬ request.call.Draws ∧ ¬ request.call.RefersTo id) :
    first.outcomes requests = second.outcomes requests := by
  refine (lockstep ?_ beside).1
  intro request member first second beside
  obtain ⟨undrawn, elsewhere⟩ := apart request member
  obtain ⟨same, -, next⟩ := beside.serve untransformed (inputs request member)
    (fun side url called => beside.patternReference fun equal => elsewhere (called ▸ equal))
    fun rasterizer called => undrawn (called ▸ trivial)
  exact ⟨same, next⟩

/-- On other canvases no pattern is known. -/
theorem redraw (beside : first.Beside kept known second) (canvas canvas' : Canvas) :
    Beside kept (fun _ => False) { first with canvas := canvas }
      { second with canvas := canvas' } :=
  { beside with artifacts := fun _ none => none.elim }

theorem render {rasterizer : Rasterizer} (beside : first.Beside kept (fun _ => False) second)
    (same : (first.render rasterizer).2 = (second.render rasterizer).2) :
    Stays kept (fun _ => False) first second (first.render rasterizer).1
      (second.render rasterizer).1 := by
  rcases drawn : rasterizer first.canvas first.program first.context with ⟨canvas, failure⟩
  rcases drawn' : rasterizer second.canvas second.program second.context with ⟨canvas', failure'⟩
  simp only [Drawing.render, drawn, drawn'] at same ⊢
  by_cases unusable : first.poisoned = true
  · rw [if_pos unusable, if_pos (beside.poisoned ▸ unusable)]
    exact idle (beside.fail .poisoned) rfl rfl
  · have unusable' : ¬ second.poisoned = true := beside.poisoned ▸ unusable
    have next := beside.redraw canvas canvas'
    rw [if_neg unusable, if_neg unusable'] at same ⊢
    cases failure with
    | none =>
        cases failure' with
        | none => exact idle next rfl rfl
        | some failure' => cases same
    | some failure =>
        cases failure' with
        | none => cases same
        | some failure' =>
            cases same
            exact idle (next.fail failure) rfl rfl

/-- Calls that end the same append the same.  A rasterizer may leave other patterns on the two
canvases; that a reference is found on both is taken from how it ends. -/
theorem additions (beside : first.Beside kept (fun _ => False) second)
    (untransformed : ¬ kept .transform)
    (inputs : ∀ request ∈ requests, ∀ kind ∈ request.call.inputs, kept kind)
    (same : first.outcomes requests = second.outcomes requests) :
    first.additions requests = second.additions requests := by
  induction requests generalizing first second with
  | nil => rfl
  | cons request rest ih =>
      obtain ⟨here, later⟩ := List.forall_mem_cons.mp inputs
      obtain ⟨ends, others⟩ := List.cons_eq_cons.mp same
      have stays : Stays kept (fun _ => False) first second (first.serve request).1
          (second.serve request).1 := by
        by_cases draws : request.call.Draws
        · rcases request with ⟨tools, call⟩
          cases call with
          | render rasterizer => exact beside.render ends
          | _ => exact draws.elim
        · refine (beside.serve untransformed here ?_ ?_).2
          · intro side url called
            rw [Drawing.serve, Drawing.serve, called] at ends
            exact patternReference_of_outcome beside.unlimited beside.unlimited' ends
          · rintro rasterizer called
            exact draws (called ▸ trivial)
      exact List.cons_eq_cons.mpr ⟨stays.added, ih stays.beside later others⟩

end Drawing.Beside

end Later

/-- A drawing that differs from another at most in the context in force, the path, the text and the
memory of failures. -/
inductive Drawing.Around (outer : Drawing) : Drawing → Prop
  | inside (buffer : Buffer) (update : Context → Context) (path : Path.State)
      (error : Option String) (indent : buffer.indent = outer.buffer.indent) :
      Around outer { outer with
        buffer := buffer
        contexts := outer.contexts.modify update
        path := path
        lastError := error }

section Inner

variable {tools : Tools} {outer drawing after : Drawing} {call : Call} {requests : List Request}

theorem ContextStack.modify_id (stack : ContextStack) : stack.modify id = stack := by
  rcases stack with ⟨root, scopes⟩
  cases scopes <;> rfl

theorem ContextStack.modify_modify (stack : ContextStack) (update next : Context → Context) :
    (stack.modify update).modify next = stack.modify (next ∘ update) := by
  rcases stack with ⟨root, scopes⟩
  cases scopes <;> rfl

theorem Drawing.Around.unmodified {buffer : Buffer} (path : Path.State) (error : Option String)
    (indent : buffer.indent = outer.buffer.indent) :
    outer.Around { outer with buffer := buffer, path := path, lastError := error } := by
  have around := Around.inside buffer id path error indent
  rwa [ContextStack.modify_id] at around

theorem Drawing.Around.trans (first : outer.Around drawing) (second : drawing.Around after) :
    outer.Around after := by
  cases first with
  | inside buffer update path error indent =>
      cases second with
      | inside buffer' update' path' error' indent' =>
          rw [ContextStack.modify_modify]
          exact .inside buffer' (update' ∘ update) path' error' (indent'.trans indent)

theorem Effect.around (effect : Effect tools drawing call after .done) (plain : call.Plain)
    (goesOn : call.GoesOn) : drawing.Around after := by
  cases effect with
  | kept planned unbracketed => exact .unmodified drawing.path drawing.lastError rfl
  | adjusted planned unbracketed =>
      exact .inside drawing.buffer _ drawing.path drawing.lastError rfl
  | wrote planned unbracketed inner usable =>
      obtain ⟨added, grows⟩ := Buffer.wroteEach_grows drawing.layout drawing.buffer _
      cases inner with
      | nothing => exact .unmodified drawing.path drawing.lastError grows.indent
      | path state => exact .unmodified state drawing.lastError grows.indent
      | context change => exact .inside _ change drawing.path drawing.lastError grows.indent
  | opened opens usable => exact (plain _ rfl).elim
  | closed closes usable => exact (plain _ rfl).elim
  | rendered usable draws => exact goesOn.elim
  | dropped => exact goesOn.elim
  | cleared => exact goesOn.elim
  | forgotten => exact .unmodified drawing.path none rfl

theorem Reachable.around (reachable : Reachable drawing)
    (inner : ∀ request ∈ requests, request.call.Plain ∧ request.call.GoesOn)
    (done : ∀ outcome ∈ drawing.outcomes requests, outcome = .done) :
    drawing.Around (drawing.perform requests) := by
  induction requests generalizing drawing with
  | nil => exact .unmodified drawing.path drawing.lastError rfl
  | cons request rest ih =>
      obtain ⟨⟨plain, goesOn⟩, others⟩ := List.forall_mem_cons.mp inner
      obtain ⟨here, later⟩ := List.forall_mem_cons.mp done
      have called : drawing.call request.tools request.call = ((drawing.serve request).1, .done) :=
        Drawing.call_of_outcome here
      have step := (reachable.effect called).around plain goesOn
      exact step.trans (ih (reachable.of_serve request) others later)

end Inner

section Patterns

variable {tools : Tools} {drawing before after opened closed : Drawing} {id : String}
  {x y width height : Float}

theorem Effect.opens_pattern (effect : Effect tools drawing
      (.instruct (.bracket (.openPattern id x y width height))) after .done) :
    ∃ buffer bounds, buffer.indent = drawing.buffer.indent ∧
      after = (Change.openPattern id bounds).apply { drawing with buffer := buffer } := by
  rcases effect.bracket_done with ⟨text, change, opens, rfl⟩ | ⟨text, change, closes, _⟩
  · cases opens
    exact ⟨drawing.buffer.extended _, _, rfl, rfl⟩
  · cases closes

theorem Effect.closes_pattern
    (effect : Effect tools drawing (.instruct (.bracket .closePattern)) after .done) :
    ∃ buffer capture body, drawing.pattern = some capture ∧ buffer.column = 0 ∧
      buffer.indent = drawing.buffer.indent - 1 ∧
        after = (Change.closePattern capture body).apply { drawing with buffer := buffer } := by
  rcases effect.bracket_done with ⟨text, change, opens, _⟩ | ⟨text, change, closes, rfl⟩
  · cases opens
  · cases closes with
    | pattern opened =>
        exact ⟨_, _, _, opened, drawing.buffer.indentOut.column_line _, rfl, rfl⟩

/-- A drawing goes beside what it becomes when a pattern is opened, filled and closed, if no
attribute that is kept has another value. -/
theorem Drawing.Around.beside {kept : Attribute → Prop} {start last : Buffer}
    {bounds : PatternBounds} {capture : Capture} {body : String}
    (around : ((Change.openPattern id bounds).apply { before with buffer := start }).Around drawing)
    (unlimited : before.layout.limit = none) (between : before.BetweenLines)
    (rests : drawing.path = {}) (vacant : before.pattern = none) (unclipped : before.openClips = [])
    (filtering : before.filtering = true) (level : start.indent = before.buffer.indent)
    (recorded : drawing.pattern = some capture) (column : last.column = 0)
    (indent : last.indent = drawing.buffer.indent - 1)
    (behind : after = (Change.closePattern capture body).apply { drawing with buffer := last })
    (agree : before.context.AgreeOn kept after.context) :
    before.Beside kept (· ≠ id) after := by
  subst behind
  cases around with
  | inside buffer update path error same =>
      cases recorded
      have line : before.buffer.SameLine last := by
        have higher : buffer.indent = start.indent + 1 := same
        have lower : last.indent = buffer.indent - 1 := indent
        rw [higher, level, Nat.add_sub_cancel] at lower
        exact ⟨between.column.trans column.symm, lower.symm⟩
      have contexts : List.Forall₂ (Context.AgreeOn kept) before.contexts.toList
          (before.contexts.modify update).toList := by
        have top : Context.AgreeOn kept before.contexts.current
            (before.contexts.modify update).current := agree
        rw [ContextStack.current_modify] at top
        rw [ContextStack.toList_modify, before.contexts.toList_eq_cons]
        exact .cons top (List.forall₂_same.mpr fun _ _ _ _ => rfl)
      have artifacts : ∀ name, name ≠ id →
          (before.canvas.artifact? (patternKey name)).isSome =
            ((before.canvas.publish before.settings.geometryKey
              ⟨id, start.size, bounds⟩ body).artifact? (patternKey name)).isSome := by
        intro name apart
        rw [Canvas.isSome_publish, decide_eq_false apart, Bool.false_or]
      exact {
        unlimited, line, contexts, artifacts
        settings := rfl
        path := between.path.trans rests.symm
        pattern := congrArg (Option.map _) vacant
        openClips := rfl
        openDefs := rfl
        clipPaths := rfl
        filtering := filtering.trans (congrArg List.isEmpty unclipped).symm
        poisoned := rfl }

/-- The drawings before and behind a pattern are beside each other, if the pattern brings no
attribute that is kept to another value. -/
theorem Reachable.beside_pattern {opening closing : Tools} {inner : List Request}
    {kept : Attribute → Prop} (reachable : Reachable before)
    (unlimited : before.layout.limit = none) (between : before.BetweenLines)
    (vacant : before.pattern = none) (unclipped : before.openClips = [])
    (opens : before.call opening (.instruct (.bracket (.openPattern id x y width height))) =
      (opened, .done))
    (draws : ∀ request ∈ inner, request.call.Plain ∧ request.call.GoesOn)
    (unbroken : literalOpen false inner = false)
    (done : ∀ outcome ∈ opened.outcomes inner, outcome = .done)
    (closes : (opened.perform inner).call closing (.instruct (.bracket .closePattern)) =
      (closed, .done))
    (agree : before.context.AgreeOn kept closed.context) :
    before.Beside kept (· ≠ id) closed := by
  have inside := reachable.of_call opens
  have begun := (reachable.effect opens).betweenLines (fun _ => between) rfl
  have ended := inside.betweenLines (fun _ => begun) done unbroken
  have around := inside.around draws done
  have filtered : before.filtering = true := by
    rw [reachable.balanced.filtering, vacant, unclipped]
    rfl
  obtain ⟨last, capture, body, recorded, column, indent, behind⟩ :=
    ((inside.of_perform inner).effect closes).closes_pattern
  obtain ⟨start, bounds, level, rfl⟩ := (reachable.effect opens).opens_pattern
  exact around.beside unlimited between ended.path vacant unclipped filtered level recorded column
    indent behind agree

end Patterns

theorem Call.transform_notMem_inputs (call : Call) : .transform ∉ call.inputs := by
  cases call with
  | instruct instruction =>
      cases instruction with
      | setting change => cases change <;> simp [inputs, Setting.inputs]
      | _ => exact List.not_mem_nil
  | accent kind color => simp [inputs]
  | _ => exact List.not_mem_nil

/-- A pattern leaks nothing but values of attributes.  Without a byte limit let calls lead to a
drawing with no definition and no path data open, and behind it to a pattern that is filled by
calls that open and close no bracket.  If later calls look only at attributes that have the same
value on both sides of the pattern, they append the same texts as they would without the pattern,
unless they end differently.  They do not end differently, if they draw nothing and do not refer to
the pattern. -/
theorem pattern_leaks_only_values (opening closing : Tools) (id : String)
    (x y width height : Float) {settings : Settings} {canvas : Canvas}
    {earlier inner later : List Request} (unlimited : settings.maxBytes = none)
    (finished : literalOpen false earlier = false) (unbroken : literalOpen false inner = false)
    (plain : ∀ request ∈ inner, request.call.Plain ∧ request.call.GoesOn) :
    let start := Drawing.start settings canvas
    let pattern : List Request :=
      ⟨opening, .instruct (.bracket (.openPattern id x y width height))⟩ ::
        (inner ++ [⟨closing, .instruct (.bracket .closePattern)⟩])
    let before := start.perform earlier
    let behind := start.perform (earlier ++ pattern)
    before.pattern = none → before.openClips = [] →
      (∀ outcome ∈ start.outcomes (earlier ++ pattern), outcome = .done) →
      (∀ request ∈ later, ∀ kind ∈ request.call.inputs,
        before.context.value kind = behind.context.value kind) →
      ((∀ request ∈ later, ¬ request.call.Draws ∧ ¬ request.call.RefersTo id) →
          before.outcomes later = behind.outcomes later) ∧
        (before.outcomes later = behind.outcomes later →
          before.additions later = behind.additions later) := by
  intro start pattern before behind vacant unclipped done agree
  let opens : Call := .instruct (.bracket (.openPattern id x y width height))
  let closes : Call := .instruct (.bracket .closePattern)
  let opened := (before.call opening opens).1
  have startReachable : Reachable start := .start settings canvas
  have reachable : Reachable before := startReachable.of_perform earlier
  rw [Drawing.outcomes_append, List.forall_mem_append] at done
  obtain ⟨earlierDone, opensDone, restDone⟩ := done.imp_right List.forall_mem_cons.mp
  rw [Drawing.outcomes_append, List.forall_mem_append] at restDone
  obtain ⟨innerDone, closesDone⟩ := restDone.imp_right List.forall_mem_singleton.mp
  have begins : before.call opening opens = (opened, .done) := Drawing.call_of_outcome opensDone
  have ends : (opened.perform inner).call closing closes = (behind, .done) := by
    have ended : behind = ((opened.perform inner).call closing closes).1 := by
      simp only [behind, pattern, Drawing.perform_append, Drawing.perform]
      rfl
    rw [ended]
    exact Drawing.call_of_outcome closesDone
  have between : before.BetweenLines :=
    startReachable.betweenLines (fun _ => ⟨rfl, rfl⟩) earlierDone finished
  have limit : before.layout.limit = none := by
    rw [Drawing.layout, startReachable.settings_perform]
    exact unlimited
  let kept (kind : Attribute) : Prop := ∃ request ∈ later, kind ∈ request.call.inputs
  have inputs : ∀ request ∈ later, ∀ kind ∈ request.call.inputs, kept kind :=
    fun request member kind among => ⟨request, member, among⟩
  have untransformed : ¬ kept .transform := by
    rintro ⟨request, -, among⟩
    exact request.call.transform_notMem_inputs among
  have beside : before.Beside kept (· ≠ id) behind := by
    refine reachable.beside_pattern limit between vacant unclipped begins plain unbroken
      innerDone ends ?_
    rintro kind ⟨request, member, among⟩
    exact agree request member kind among
  constructor
  · intro apart
    exact beside.outcomes untransformed inputs apart
  · intro same
    have anyhow : before.Beside kept (fun _ => False) behind :=
      beside.redraw before.canvas behind.canvas
    exact anyhow.additions untransformed inputs same

/-- A pattern that fills in red, and a stroke and a scope behind it. -/
theorem pattern_leaks_only_values_before_stroke :
    let set (side : Side) (color : Rgba) : Request := ⟨{}, .instruct (.setting (.paint side color))⟩
    let bracket (edge : Bracket) : Request := ⟨{}, .instruct (.bracket edge)⟩
    let start := Drawing.start {} ⟨64, 64, .empty⟩
    let earlier := [set .stroke ⟨0, 0, 255, 255⟩]
    let pattern := [bracket (.openPattern "p" 0 0 8 8), set .fill ⟨255, 0, 0, 255⟩,
      bracket .closePattern]
    let later := [set .stroke ⟨0, 255, 0, 255⟩, bracket .openScope, set .stroke .black]
    let before := start.perform earlier
    let behind := start.perform (earlier ++ pattern)
    before.context.fill ≠ behind.context.fill ∧
      before.outcomes later = behind.outcomes later ∧
        before.additions later = behind.additions later := by
  intro set bracket start earlier pattern later before behind
  have plain : ∀ request ∈ [set .fill ⟨255, 0, 0, 255⟩],
      request.call.Plain ∧ request.call.GoesOn := by
    intro request member
    rw [List.mem_singleton.mp member]
    exact ⟨nofun, trivial⟩
  have held : before.context.stroke = behind.context.stroke ∧
      before.context.alpha = behind.context.alpha := by
    decide +kernel
  have agree : ∀ first second : Context, first.stroke = second.stroke ∧ first.alpha = second.alpha →
      ∀ request ∈ later, ∀ kind ∈ request.call.inputs, first.value kind = second.value kind := by
    intro first second held
    have stroke : ∀ kind ∈ [Attribute.paint .stroke, .alpha],
        first.value kind = second.value kind := by
      intro kind member
      rcases List.mem_pair.mp member with rfl | rfl
      · exact held.1
      · exact held.2
    intro request member
    simp only [later, List.mem_cons, List.not_mem_nil, or_false] at member
    rcases member with rfl | rfl | rfl
    · exact stroke
    · exact nofun
    · exact stroke
  have apart : ∀ request ∈ later, ¬ request.call.Draws ∧ ¬ request.call.RefersTo "p" := by
    simp [later, set, bracket, Call.Draws, Call.RefersTo]
  have done : ∀ outcome ∈ start.outcomes (earlier ++ pattern), outcome = .done := by
    decide +kernel
  obtain ⟨ends, appends⟩ := pattern_leaks_only_values {} {} "p" 0 0 8 8 rfl rfl rfl plain rfl rfl
    done (agree _ _ held)
  exact ⟨by decide +kernel, ends apart, appends (ends apart)⟩

/-- A pattern that fills in red, and the same fill behind it, which is left out. -/
theorem pattern_hides_setting :
    let red : Request := ⟨{}, .instruct (.setting (.paint .fill ⟨255, 0, 0, 255⟩))⟩
    let bracket (edge : Bracket) : Request := ⟨{}, .instruct (.bracket edge)⟩
    let start := Drawing.start {} ⟨64, 64, .empty⟩
    let pattern := [bracket (.openPattern "p" 0 0 8 8), red, bracket .closePattern]
    start.outcomes (pattern ++ [red]) = [.done, .done, .done, .done] ∧
      start.outcomes [red] = [.done] ∧
        start.additions [red] = ["fill '#FF0000'\n"] ∧
          (start.perform pattern).additions [red] = [""] := by
  decide +kernel

end Quill
