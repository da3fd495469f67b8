import Quill.Proofs.Limit

/-!
# Runs under a byte limit

Two new drawings, one with a byte limit and one without, get the same requests.  They stay the
same up to the first request that makes the program too long.  There the limited drawing runs
out of room with its program as it was.
-/

namespace Quill

section Unlimited

variable {tools : Tools} {drawing : Drawing} {call : Call} {plan : Plan} {request : Request}

theorem Plan.Writes.run_unlimited_not_full {buffer : Buffer} {change : Change}
    (writes : plan.Writes drawing buffer change) (modest : plan.Modest) :
    (plan.run (drawing.limited none)).2 ≠ .failed .outOfMemory := by
  by_cases poisoned : drawing.poisoned = true
  · rw [(writes.limited none).run_poisoned poisoned]
    nofun
  · rw [writes.run_unlimited modest (by simpa using poisoned)]
    nofun

theorem Plan.run_unlimited_not_full (modest : plan.Modest) :
    (plan.run (drawing.limited none)).2 ≠ .failed .outOfMemory := by
  cases plan with
  | refuse failure =>
      intro full
      cases full
      exact modest rfl
  | keep | adjust change => nofun
  | write pieces change => exact Writes.write.run_unlimited_not_full modest
  | close text change => exact Writes.close.run_unlimited_not_full modest

theorem Drawing.render_not_full {rasterizer : Rasterizer}
    (roomy : ∀ canvas program context,
      (rasterizer canvas program context).2 ≠ some .outOfMemory) :
    (drawing.render rasterizer).2 ≠ .failed .outOfMemory := by
  have rasterized := roomy drawing.canvas drawing.program drawing.context
  rw [render]
  split
  · intro full
    cases full
  split
  · intro full
    cases full
  · rename_i failure drawn
    intro full
    cases full
    rw [drawn] at rasterized
    exact rasterized rfl

/-- Without a limit there is always room. -/
theorem Drawing.serve_unlimited_not_full (roomy : request.Roomy) :
    ((drawing.limited none).serve request).2 ≠ .failed .outOfMemory := by
  obtain ⟨tools, call⟩ := request
  rw [serve]
  cases planned : call.plan? tools drawing with
  | some plan =>
      rw [call_eq_run ((Call.plan?_limited none).trans planned)]
      exact Plan.run_unlimited_not_full (Call.plan?_modest roomy.1 planned)
  | none =>
      cases call with
      | instruct _ | accent _ _ => cases planned
      | composite placement picture =>
          rw [(composite_of_unplanned ((Call.plan?_limited none).trans planned)).2]
          exact Outcome.noConfusion
      | render rasterizer => exact render_not_full (roomy.2 rasterizer rfl)
      | dropProgram | clear | clearError => exact Outcome.noConfusion

end Unlimited

section Limited

variable {drawing : Drawing} {request : Request} {requests : List Request} {limit : Nat}

theorem Drawing.limited_self {bound : Option Nat} (same : drawing.settings.maxBytes = bound) :
    drawing.limited bound = drawing := by
  subst same
  rfl

theorem Reachable.settings_serve (reachable : Reachable drawing) (request : Request) :
    (drawing.serve request).1.settings = drawing.settings := by
  have called : drawing.call request.tools request.call = drawing.serve request := rfl
  exact (reachable.effect called).settings

theorem Reachable.settings_perform (reachable : Reachable drawing) :
    (drawing.perform requests).settings = drawing.settings := by
  induction requests generalizing drawing with
  | nil => rfl
  | cons request rest ih =>
      exact (ih (reachable.of_serve request)).trans (reachable.settings_serve request)

/-- No request makes the program of a limited drawing too long. -/
theorem Reachable.serve_bounded (reachable : Reachable drawing) (roomy : request.Roomy)
    (bound : drawing.settings.maxBytes = some limit)
    (start : drawing.program.utf8ByteSize ≤ limit) :
    (drawing.serve request).1.program.utf8ByteSize ≤ limit := by
  rw [← drawing.limited_self bound]
  by_cases overflows : limit < ((drawing.limited none).serve request).1.program.utf8ByteSize
  · rw [reachable.balanced.serve_limited_of_overflows roomy start overflows]
    exact start
  · have fits := Nat.not_lt.mp overflows
    rw [Drawing.serve_limited_of_fits roomy fits]
    exact fits

theorem Reachable.perform_bounded (reachable : Reachable drawing)
    (roomy : ∀ request ∈ requests, request.Roomy)
    (bound : drawing.settings.maxBytes = some limit)
    (start : drawing.program.utf8ByteSize ≤ limit) :
    (drawing.perform requests).program.utf8ByteSize ≤ limit := by
  induction requests generalizing drawing with
  | nil => exact start
  | cons request rest ih =>
      obtain ⟨first, others⟩ := List.forall_mem_cons.mp roomy
      have settings := congrArg Settings.maxBytes (reachable.settings_serve request)
      exact ih (reachable.of_serve request) others (settings.trans bound)
        (reachable.serve_bounded first bound start)

/-- A limited drawing runs out of room exactly at the requests that do not fit. -/
theorem Reachable.serve_full_iff (reachable : Reachable drawing) (roomy : request.Roomy)
    (bound : drawing.settings.maxBytes = some limit)
    (start : drawing.program.utf8ByteSize ≤ limit) :
    (drawing.serve request).2 = .failed .outOfMemory ↔
      limit < ((drawing.limited none).serve request).1.program.utf8ByteSize := by
  have served := drawing.limited_self bound
  constructor
  · intro full
    by_contra fits
    rw [← served, Drawing.serve_limited_of_fits roomy (Nat.not_lt.mp fits)] at full
    exact Drawing.serve_unlimited_not_full roomy full
  · intro overflows
    rw [← served, reachable.balanced.serve_limited_of_overflows roomy start overflows]

end Limited

/-- No request of a list makes the program longer than a number of bytes. -/
def Drawing.Fits (limit : Nat) (drawing : Drawing) : List Request → Prop
  | [] => True
  | request :: rest =>
    (drawing.serve request).1.program.utf8ByteSize ≤ limit ∧
      (drawing.serve request).1.Fits limit rest

/-- As long as everything fits, the limit makes no difference. -/
theorem Drawing.Fits.perform {drawing : Drawing} {requests : List Request} {limit : Nat}
    (fits : (drawing.limited none).Fits limit requests)
    (reachable : Reachable (drawing.limited none))
    (roomy : ∀ request ∈ requests, request.Roomy) :
    (drawing.limited (some limit)).outcomes requests = (drawing.limited none).outcomes requests ∧
      (drawing.limited (some limit)).perform requests =
        ((drawing.limited none).perform requests).limited (some limit) := by
  induction requests generalizing drawing with
  | nil => exact ⟨rfl, rfl⟩
  | cons request rest ih =>
      obtain ⟨here, after⟩ := fits
      obtain ⟨first, others⟩ := List.forall_mem_cons.mp roomy
      have served := serve_limited_of_fits first here
      have next := reachable.of_serve request
      have unlimited : ((drawing.limited none).serve request).1.limited none =
          ((drawing.limited none).serve request).1 :=
        limited_self (congrArg Settings.maxBytes (reachable.settings_serve request))
      rw [← unlimited] at after
      obtain ⟨outcomes, last⟩ := ih after (unlimited ▸ next) others
      rw [unlimited] at outcomes last
      rw [Drawing.outcomes, Drawing.outcomes, Drawing.perform, Drawing.perform, served]
      exact ⟨congrArg _ outcomes, last⟩

/-- A byte limit only cuts the program.  Up to the first request that makes the unlimited
program too long, the outcomes and the drawings are the same; that request runs out of room and
leaves the limited drawing as it was, but for the failure.  The limited program never exceeds
the limit, and a request runs out of room exactly if its instruction does not fit. -/
theorem limit_cuts_program (settings : Settings) (canvas : Canvas) (limit : Nat)
    {requests : List Request} (roomy : ∀ request ∈ requests, request.Roomy) :
    let free := Drawing.start { settings with maxBytes := none } canvas
    let limited := Drawing.start { settings with maxBytes := some limit } canvas
    (∀ {earlier later}, requests = earlier ++ later → free.Fits limit earlier →
      limited.outcomes earlier = free.outcomes earlier ∧
        limited.perform earlier = (free.perform earlier).limited (some limit)) ∧
    (∀ {earlier request later}, requests = earlier ++ request :: later →
      free.Fits limit earlier →
      limit < (free.perform (earlier ++ [request])).program.utf8ByteSize →
        (limited.perform earlier).serve request =
          ((limited.perform earlier).record .outOfMemory, .failed .outOfMemory)) ∧
    (∀ {earlier later}, requests = earlier ++ later →
      (limited.perform earlier).program.utf8ByteSize ≤ limit) ∧
    ∀ {earlier request later}, requests = earlier ++ request :: later →
      (((limited.perform earlier).serve request).2 = .failed .outOfMemory ↔
        limit <
          (((limited.perform earlier).limited none).serve request).1.program.utf8ByteSize) := by
  intro free limited
  have freeReachable : Reachable free := .start _ canvas
  have limitedReachable : Reachable limited := .start _ canvas
  have together : ∀ {earlier}, (∀ request ∈ earlier, request.Roomy) → free.Fits limit earlier →
      limited.outcomes earlier = free.outcomes earlier ∧
        limited.perform earlier = (free.perform earlier).limited (some limit) :=
    fun roomy fits => (show (free.limited none).Fits limit _ from fits).perform freeReachable roomy
  have bounded : ∀ {earlier}, (∀ request ∈ earlier, request.Roomy) →
      (limited.perform earlier).program.utf8ByteSize ≤ limit :=
    fun roomy => limitedReachable.perform_bounded roomy rfl (Nat.zero_le _)
  refine ⟨?_, ?_, ?_, ?_⟩
  · rintro earlier later rfl fits
    exact together (fun request member => roomy request (List.mem_append_left _ member)) fits
  · rintro earlier request later rfl fits overflows
    obtain ⟨before, here, -⟩ := List.forall_mem_append.mp roomy |>.imp_right List.forall_mem_cons.mp
    obtain ⟨-, same⟩ := together before fits
    have start := bounded before
    have unlimited : (free.perform earlier).limited none = free.perform earlier :=
      Drawing.limited_self (congrArg Settings.maxBytes freeReachable.settings_perform)
    rw [same] at start ⊢
    refine (freeReachable.of_perform earlier).balanced.serve_limited_of_overflows here start ?_
    rw [unlimited]
    rwa [Drawing.perform_append] at overflows
  · rintro earlier later rfl
    exact bounded fun request member => roomy request (List.mem_append_left _ member)
  · rintro earlier request later rfl
    obtain ⟨before, here, -⟩ := List.forall_mem_append.mp roomy |>.imp_right List.forall_mem_cons.mp
    exact (limitedReachable.of_perform earlier).serve_full_iff here
      (congrArg Settings.maxBytes limitedReachable.settings_perform) (bounded before)

/-- A polygon whose first point fits and whose second does not leaves nothing behind. -/
theorem limit_cuts_program_midway :
    let tools : Tools := { encode := fun _ => .ok ⟨"image/png", []⟩ }
    let scope : Request := ⟨tools, .instruct (.bracket .openScope)⟩
    let polygon : Request := ⟨tools, .instruct (.shape (.polygon [(1, 1), (2, 2)]))⟩
    let limited := Drawing.start { maxBytes := some 36 } ⟨64, 64, .empty⟩
    limited.outcomes [scope, polygon] = [.done, .failed .outOfMemory] ∧
      (limited.perform [scope, polygon]).program = "push graphic-context\n" := by
  intro tools scope polygon limited
  let free := Drawing.start {} ⟨64, 64, .empty⟩
  have roomy : ∀ request ∈ [scope, polygon], request.Roomy := by
    intro request member
    simp only [List.mem_cons, List.not_mem_nil, or_false] at member
    rcases member with rfl | rfl
    · exact ⟨nofun, nofun⟩
    · exact ⟨nofun, nofun⟩
  obtain ⟨together, cut, -, -⟩ := limit_cuts_program {} ⟨64, 64, .empty⟩ 36 roomy
  have before : [scope, polygon] = [scope] ++ polygon :: [] := rfl
  have opened : (free.serve scope).1.program.utf8ByteSize ≤ 36 := by decide +kernel
  have fits : free.Fits 36 [scope] := And.intro opened trivial
  obtain ⟨outcomes, same⟩ := together before fits
  have overflows : 36 < (free.perform ([scope] ++ [polygon])).program.utf8ByteSize := by
    decide +kernel
  have failed := cut before fits overflows
  have first : free.outcomes [scope] = [.done] := by decide +kernel
  have program : (free.perform [scope]).program = "push graphic-context\n" := by decide +kernel
  constructor
  · rw [before, Drawing.outcomes_append, outcomes, first, Drawing.outcomes, failed]
    rfl
  · rw [before, Drawing.perform_append, Drawing.perform, failed, same]
    exact program

end Quill
