import Quill.Proofs.InstructionLines
import Quill.Proofs.Lines

/-!
# Indentation shows nesting

Where no path literal is open the program is at the start of a line, and what is written there
starts with one space for every open bracket.  A list of points or a path literal may go on over
several lines, each of which starts with that many spaces too.  The commands of path data say
nothing without a literal around them, and a drawing does not see to it that they have one, so all
this holds of runs that keep them inside.
-/

namespace Quill

/-- Whether a step writes the opening quote of a path literal. -/
def Path.Step.quotes : Path.Step → Bool
  | .start => true
  | _ => false

/-- Whether the quotes of a path literal are open behind a call, if they were found open or not. -/
abbrev Call.leavesQuote (found : Bool) (call : Call) : Bool :=
  call.leavesOpen Path.Step.quotes found

/-- Whether requests leave the quotes of a path literal open. -/
def quoteOpen (found : Bool) (requests : List Request) : Bool :=
  openBehind Path.Step.quotes found requests

/-- Whether a call may be made where a path literal is open or is not: the commands of path data
belong inside, and all other instructions outside. -/
def Call.fits (inside : Bool) : Call → Bool
  | .instruct (.path .start) | .instruct (.path .finish) => true
  | .instruct (.path _) => inside
  | .instruct _ | .accent _ _ | .composite _ _ => !inside
  | .render _ | .dropProgram | .clear | .clearError => true

/-- Whether all calls of some requests are made where they belong. -/
def orderly (inside : Bool) : List Request → Bool
  | [] => true
  | request :: rest => request.call.fits inside && orderly (request.call.leavesQuote inside) rest

def Call.closesBracket : Call → Bool
  | .instruct (.bracket .closeScope) | .instruct (.bracket .closePattern)
  | .instruct (.bracket .closeClipPath) | .instruct (.bracket .closeDefs) => true
  | _ => false

/-- The number of brackets around what a call writes.  A bracket that is closed by it counts as
closed already. -/
def Drawing.depthOf (drawing : Drawing) (call : Call) : Nat :=
  if call.closesBracket then drawing.brackets - 1 else drawing.brackets

/-- Behind every line break of a text, unless it ends the text and nothing goes on behind it, stand
at least as many spaces as given. -/
def ContinuesAt (depth : Nat) (goesOn : Bool) (text : List Char) : Prop :=
  ∀ front rest, text = front ++ '\n' :: rest →
    rest = [] ∧ goesOn = false ∨ List.replicate depth ' ' <+: rest

section Texts

variable {depth : Nat} {goesOn : Bool} {text : List Char}

theorem Continued.continuesAt (continued : Continued depth text) :
    ContinuesAt depth goesOn text :=
  fun front rest split => .inr (continued front rest split)

theorem Continued.continuesAt_line (continued : Continued depth text) :
    ContinuesAt depth false (text ++ ['\n']) := by
  intro front rest split
  rcases List.eq_nil_or_concat' rest with rfl | ⟨more, last, rfl⟩
  · exact .inl ⟨rfl, rfl⟩
  · have whole : text ++ ['\n'] = (front ++ '\n' :: more) ++ [last] := by
      rw [split, List.append_assoc, List.cons_append]
    have shorter := continued front more (List.append_inj_left' whole rfl)
    exact .inr (shorter.trans (List.prefix_append more [last]))

end Texts

section Quotes

variable {tools : Tools} {drawing after : Drawing} {call : Call} {inside : Bool}
  {requests : List Request}

theorem Call.leavesOpen_of_fits (fits : call.fits inside = true) :
    call.leavesOpen (fun _ => true) inside = call.leavesQuote inside := by
  cases call with
  | instruct instruction =>
      cases instruction with
      | path step =>
          cases step with
          | start | finish => rfl
          | close | segment mode command => exact fits.symm
      | _ => rfl
  | _ => rfl

/-- Where all calls are made where they belong, a literal is open only between its quotes. -/
theorem literalOpen_of_orderly (ordered : orderly inside requests = true) :
    literalOpen inside requests = quoteOpen inside requests := by
  induction requests generalizing inside with
  | nil => rfl
  | cons request rest ih =>
      rw [orderly, Bool.and_eq_true] at ordered
      calc literalOpen inside (request :: rest)
        _ = literalOpen (request.call.leavesOpen (fun _ => true) inside) rest := rfl
        _ = literalOpen (request.call.leavesQuote inside) rest := by
          rw [Call.leavesOpen_of_fits ordered.1]
        _ = quoteOpen (request.call.leavesQuote inside) rest := ih ordered.2

theorem orderly_append {earlier later : List Request} :
    orderly inside (earlier ++ later) = true ↔
      orderly inside earlier = true ∧ orderly (quoteOpen inside earlier) later = true := by
  induction earlier generalizing inside with
  | nil => simp [orderly, quoteOpen, openBehind]
  | cons request rest ih =>
      rw [List.cons_append, orderly, orderly, Bool.and_eq_true, Bool.and_eq_true, ih, and_assoc]
      rfl

theorem Change.Inner.apply_buffer {change : Change} (inner : change.Inner) (drawing : Drawing) :
    (change.apply drawing).buffer = drawing.buffer := by
  cases inner <;> rfl

theorem Path.Step.plan_write (step : Path.Step) (drawing : Drawing) :
    ∃ pieces change, step.plan drawing = .write pieces change := by
  cases step <;> exact ⟨_, _, rfl⟩

theorem Call.pathless_of_unwritten {plan : Plan} (planned : call.plan? tools drawing = some plan)
    (unwritten : ∀ pieces change, plan ≠ .write pieces change) (step : Path.Step) :
    call ≠ .instruct (.path step) := by
  rintro rfl
  obtain ⟨pieces, change, written⟩ := step.plan_write drawing
  exact unwritten pieces change ((Option.some.inj planned).symm.trans written)

/-- Whatever is planned and is no path data belongs outside of path literals, and leaves none
open. -/
theorem Call.outside_of_planned {plan : Plan} (planned : call.plan? tools drawing = some plan)
    (pathless : ∀ step, call ≠ .instruct (.path step)) (fits : call.fits inside = true) :
    inside = false ∧ call.leavesQuote inside = false := by
  have outside : inside = false := by
    cases call with
    | instruct instruction =>
        cases instruction with
        | path step => exact (pathless step rfl).elim
        | _ => simpa [Call.fits] using fits
    | accent kind color | composite placement picture => simpa [Call.fits] using fits
    | render _ | dropProgram | clear | clearError => cases planned
  exact ⟨outside, (Call.leavesOpen_planned planned pathless).trans outside⟩

theorem Path.Step.wrote {pieces : List Piece} {change : Change} (step : Path.Step)
    (planned : step.plan drawing = .write pieces change)
    (fits : (Call.instruct (.path step)).fits inside = true)
    (filled : inside = true → drawing.buffer.Filled) :
    ∃ added, Buffer.Grows drawing.buffer
        (pieces.foldl (Buffer.wrote drawing.layout) drawing.buffer) added ∧
      ((Call.instruct (.path step)).leavesQuote inside = true →
        (pieces.foldl (Buffer.wrote drawing.layout) drawing.buffer).Filled) ∧
      ContinuesAt drawing.buffer.indent ((Call.instruct (.path step)).leavesQuote inside)
        added.toList := by
  have commands : ∀ command : Path.Command, command.step = step → inside = true →
      ∃ added, Buffer.Grows drawing.buffer
          (pieces.foldl (Buffer.wrote drawing.layout) drawing.buffer) added ∧
        (pieces.foldl (Buffer.wrote drawing.layout) drawing.buffer).Filled ∧
          Continued drawing.buffer.indent added.toList := by
    rintro command rfl opened
    rw [command.plan_step] at planned
    cases planned
    have single : SingleLine (Piece.wrapping ((command.token drawing.path).text ++
        " ".intercalate command.groups)).text := command.singleLine_piece drawing.path
    exact (filled opened).wrote drawing.layout single
  cases step with
  | start =>
      cases planned
      have quote : SingleLine "path '" := by decide
      exact ⟨_, drawing.buffer.extended_grows _, fun _ => drawing.buffer.extended_filled quote,
        (Continued.of_single (quote.behind_spaces _)).continuesAt⟩
  | finish =>
      cases planned
      have quote : Headed "'" := ⟨by decide, by decide⟩
      obtain ⟨body, grows, continued⟩ :=
        quote.inLine.lined.continued quote.inLine.leads drawing.layout drawing.buffer
      refine ⟨_, grows, nofun, ?_⟩
      rw [String.toList_append]
      exact continued.continuesAt_line
  | close =>
      obtain ⟨added, grows, last, continued⟩ := commands .close rfl fits
      exact ⟨added, grows, fun _ => last, continued.continuesAt⟩
  | segment mode command =>
      obtain ⟨added, grows, last, continued⟩ := commands (.segment mode command) rfl fits
      exact ⟨added, grows, fun _ => last, continued.continuesAt⟩

/-- What a call writes is led up to the indentation on every line that it goes on with. -/
theorem Call.wrote_continues {pieces : List Piece} {change : Change}
    (planned : call.plan? tools drawing = some (.write pieces change)) (plain : call.Plain)
    (fits : call.fits inside = true) (single : ∀ text ∈ call.texts, SingleLine text)
    (filled : inside = true → drawing.buffer.Filled) :
    ∃ added, Buffer.Grows drawing.buffer
        (pieces.foldl (Buffer.wrote drawing.layout) drawing.buffer) added ∧
      (call.leavesQuote inside = true →
        (pieces.foldl (Buffer.wrote drawing.layout) drawing.buffer).Filled) ∧
      ((∀ placement picture, call ≠ .composite placement picture) →
        ContinuesAt drawing.buffer.indent (call.leavesQuote inside) added.toList) := by
  by_cases pathed : ∃ step, call = .instruct (.path step)
  · obtain ⟨step, rfl⟩ := pathed
    obtain ⟨added, grows, last, continues⟩ := step.wrote (Option.some.inj planned) fits filled
    exact ⟨added, grows, last, fun _ => continues⟩
  have pathless : ∀ step, call ≠ .instruct (.path step) := not_exists.mp pathed
  have closed := (Call.outside_of_planned planned pathless fits).2
  rw [closed]
  by_cases pictured : ∃ placement picture, call = .composite placement picture
  · obtain ⟨placement, picture, rfl⟩ := pictured
    obtain ⟨added, grows⟩ := Buffer.wroteEach_grows drawing.layout drawing.buffer pieces
    exact ⟨added, grows, nofun, fun pictureless => (pictureless placement picture rfl).elim⟩
  · have pictureless : ∀ placement picture, call ≠ .composite placement picture :=
      fun placement picture same => pictured ⟨placement, picture, same⟩
    have lines := Call.plan?_inLine planned plain pathless pictureless single
    obtain ⟨body, grows, continued⟩ :=
      lines.lined.continued lines.leads drawing.layout drawing.buffer
    refine ⟨_, grows, nofun, fun _ => ?_⟩
    rw [String.toList_append]
    exact continued.continuesAt_line

theorem Buffer.since_of_empty {buffer : Buffer} (empty : buffer.text = "") (offset : Nat) :
    buffer.since offset = "" := by
  rw [since, empty]
  cases offset <;> rfl

theorem continuesAt_nil {depth : Nat} {goesOn : Bool} : ContinuesAt depth goesOn [] :=
  (Continued.of_single List.not_mem_nil).continuesAt

theorem Drawing.depthOf_plain (drawing : Drawing) (plain : call.Plain) :
    drawing.depthOf call = drawing.brackets := by
  rw [depthOf, if_neg]
  unfold Call.closesBracket
  split
  all_goals first | exact (plain _ rfl).elim | exact Bool.false_ne_true

theorem Bracket.Opens.depthOf {bracket : Bracket} {text : String} {change : Change}
    (opens : bracket.Opens drawing text change) :
    drawing.depthOf (.instruct (.bracket bracket)) = drawing.brackets := by
  cases opens <;> rfl

theorem Bracket.Closes.depthOf {bracket : Bracket} {text : String} {change : Change}
    (closes : bracket.Closes drawing text change) :
    drawing.depthOf (.instruct (.bracket bracket)) = drawing.brackets - 1 := by
  cases closes <;> rfl

theorem Headed.continuesAt {text : String} (headed : Headed text) (buffer : Buffer)
    (depth : Nat) :
    ContinuesAt depth false (spaces (buffer.indent - buffer.column) ++ (text ++ "\n")).toList := by
  rw [← String.append_assoc, String.toList_append]
  exact (Continued.of_single (headed.single.behind_spaces _)).continuesAt_line

/-- What a call appends that is done and may be made where it is made: nothing, the pieces of an
instruction, or the line of a bracket, which is indented as far as the brackets around it demand. -/
inductive Appended (tools : Tools) (drawing after : Drawing) (call : Call) (inside : Bool) : Prop
  | nothing (unchanged : drawing.added after = "")
      (kept : call.leavesQuote inside = true → inside = true ∧ after.buffer = drawing.buffer)
  | pieces {pieces : List Piece} {change : Change}
      (planned : call.plan? tools drawing = some (.write pieces change)) (plain : call.Plain)
      (indent : drawing.buffer.indent = drawing.depthOf call)
      (buffer : after.buffer = pieces.foldl (Buffer.wrote drawing.layout) drawing.buffer)
  | line {text : String} {buffer : Buffer} (headed : Headed text)
      (closed : call.leavesQuote inside = false) (column : buffer.column = drawing.buffer.column)
      (indent : buffer.indent = drawing.depthOf call)
      (added : drawing.added after = spaces (buffer.indent - buffer.column) ++ (text ++ "\n"))

theorem Effect.appended (effect : Effect tools drawing call after .done)
    (balanced : Balanced drawing) (fits : call.fits inside = true)
    (single : ∀ text ∈ call.texts, SingleLine text) :
    Appended tools drawing after call inside := by
  cases effect with
  | kept planned plain | adjusted planned plain =>
      have pathless := Call.pathless_of_unwritten planned fun _ _ => Plan.noConfusion
      have closed := (Call.outside_of_planned planned pathless fits).2
      exact .nothing (Drawing.added_nothing rfl)
        fun opened => (Bool.false_ne_true (closed.symm.trans opened)).elim
  | wrote planned plain inner usable =>
      exact .pieces planned plain (balanced.indent.trans (drawing.depthOf_plain plain).symm)
        (inner.apply_buffer _)
  | @opened bracket text change opens usable =>
      have grows := drawing.buffer.extended_grows (text ++ "\n")
      have outside : inside = false := by simpa [Call.fits] using fits
      exact .line (opens.headed single) outside rfl (balanced.indent.trans opens.depthOf.symm)
        (Change.added_apply change grows.text)
  | @closed bracket text change closes usable =>
      have grows := drawing.buffer.indentOut.extended_grows (text ++ "\n")
      have outside : inside = false := by simpa [Call.fits] using fits
      have column : drawing.buffer.indentOut.column = drawing.buffer.column := rfl
      have indent : drawing.buffer.indentOut.indent = drawing.brackets - 1 :=
        congrArg (· - 1) balanced.indent
      exact .line closes.headed outside column (indent.trans closes.depthOf.symm)
        (Change.added_apply change grows.text)
  | rendered usable draws | forgotten =>
      exact .nothing (Drawing.added_nothing rfl) fun opened => ⟨opened, rfl⟩
  | dropped | cleared => exact .nothing (Buffer.since_of_empty rfl _) nofun

/-- A call goes on only with lines that are led up to the brackets around it, and if it leaves a
path literal open, the last of them has come that far. -/
theorem Appended.continues (appended : Appended tools drawing after call inside)
    (fits : call.fits inside = true) (single : ∀ text ∈ call.texts, SingleLine text)
    (filled : inside = true → drawing.buffer.Filled) :
    (call.leavesQuote inside = true → after.buffer.Filled) ∧
      ((∀ placement picture, call ≠ .composite placement picture) →
        ContinuesAt (drawing.depthOf call) (call.leavesQuote inside)
          (drawing.added after).toList) := by
  cases appended with
  | nothing unchanged kept =>
      rw [unchanged]
      refine ⟨fun opened => ?_, fun _ => continuesAt_nil⟩
      obtain ⟨found, same⟩ := kept opened
      rw [same]
      exact filled found
  | pieces planned plain indent buffer =>
      obtain ⟨added, grows, last, continues⟩ :=
        Call.wrote_continues planned plain fits single filled
      rw [← buffer] at grows last
      rw [Drawing.added_eq grows.text, ← indent]
      exact ⟨last, continues⟩
  | line headed closed column indent added =>
      rw [closed, added]
      exact ⟨nofun, fun _ => headed.continuesAt _ _⟩

theorem Headed.startsAt {text : String} (headed : Headed text) {buffer : Buffer}
    (column : buffer.column = 0) :
    StartsAt buffer.indent
      (spaces (buffer.indent - buffer.column) ++ (text ++ "\n")).toList := by
  refine .inr ⟨(text ++ "\n").toList, ?_, ?_⟩
  · rw [column, Nat.sub_zero, String.toList_append, toList_spaces]
  · rw [String.toList_append]
    exact headed.solid.append _

theorem Call.plan?_leads {pieces : List Piece} {change : Change}
    (planned : call.plan? tools drawing = some (.write pieces change)) (plain : call.Plain)
    (fits : call.fits false = true) (single : ∀ text ∈ call.texts, SingleLine text) :
    Leads pieces := by
  by_cases pathed : ∃ step, call = .instruct (.path step)
  · obtain ⟨step, rfl⟩ := pathed
    cases step with
    | start =>
        cases planned
        exact ⟨_, [], rfl, by decide⟩
    | finish =>
        cases planned
        exact ⟨_, [], rfl, by decide⟩
    | close | segment mode command => cases fits
  by_cases pictured : ∃ placement picture, call = .composite placement picture
  · obtain ⟨placement, picture, rfl⟩ := pictured
    exact Call.composite_leads planned
  · exact (Call.plan?_inLine planned plain (not_exists.mp pathed)
      (fun placement picture same => pictured ⟨placement, picture, same⟩) single).leads

/-- At the start of a line a call writes nothing, or an instruction that is led up to the brackets
around it. -/
theorem Appended.startsAt (appended : Appended tools drawing after call false)
    (column : drawing.buffer.column = 0) (fits : call.fits false = true)
    (single : ∀ text ∈ call.texts, SingleLine text) :
    StartsAt (drawing.depthOf call) (drawing.added after).toList := by
  cases appended with
  | nothing unchanged kept =>
      rw [unchanged]
      exact .inl rfl
  | pieces planned plain indent buffer =>
      have leads := Call.plan?_leads planned plain fits single
      obtain ⟨added, grows, starts⟩ := leads.startsAt drawing.layout column
      rw [← buffer] at grows
      rw [Drawing.added_eq grows.text, ← indent]
      exact starts
  | line headed closed place indent added =>
      rw [added, ← indent]
      exact headed.startsAt (place.trans column)

end Quotes

section Runs

variable {drawing : Drawing} {inside : Bool} {requests : List Request}

/-- Calls that are done and made where they belong leave a path literal open only on a line that is
as long as the indentation. -/
theorem Reachable.filled (reachable : Reachable drawing)
    (filled : inside = true → drawing.buffer.Filled)
    (done : ∀ outcome ∈ drawing.outcomes requests, outcome = .done)
    (ordered : orderly inside requests = true)
    (single : ∀ request ∈ requests, ∀ text ∈ request.call.texts, SingleLine text)
    (opened : quoteOpen inside requests = true) : (drawing.perform requests).buffer.Filled := by
  induction requests generalizing drawing inside with
  | nil => exact filled opened
  | cons request rest ih =>
      obtain ⟨here, later⟩ := List.forall_mem_cons.mp done
      obtain ⟨texts, others⟩ := List.forall_mem_cons.mp single
      rw [orderly, Bool.and_eq_true] at ordered
      have called : drawing.call request.tools request.call = ((drawing.serve request).1, .done) :=
        Drawing.call_of_outcome here
      have appended := (reachable.effect called).appended reachable.balanced ordered.1 texts
      have next := (appended.continues ordered.1 texts filled).1
      exact ih (reachable.of_serve request) next later ordered.2 others opened

end Runs

/-- In every run of calls that are all done, keep the commands of path data inside of path literals
and everything else outside, and are given texts without line breaks: wherever no path literal is
open, the program is at the start of a line and a call appends nothing or starts with exactly one
space for each bracket around what it writes; and behind each line break that a call other than a
composite appends, unless it ends the instruction, there are at least that many spaces. -/
theorem indentation_shows_nesting (settings : Settings) (canvas : Canvas)
    (requests : List Request)
    (done : ∀ outcome ∈ (Drawing.start settings canvas).outcomes requests, outcome = .done)
    (ordered : orderly false requests = true)
    (single : ∀ request ∈ requests, ∀ text ∈ request.call.texts, SingleLine text) :
    (quoteOpen false requests = false →
        ((Drawing.start settings canvas).perform requests).buffer.column = 0) ∧
      ∀ earlier request later, requests = earlier ++ request :: later →
        let before := (Drawing.start settings canvas).perform earlier
        let added := before.added (before.serve request).1
        (quoteOpen false earlier = false →
          before.buffer.column = 0 ∧ StartsAt (before.depthOf request.call) added.toList) ∧
        ((∀ placement picture, request.call ≠ .composite placement picture) →
          ContinuesAt (before.depthOf request.call) (quoteOpen false (earlier ++ [request]))
            added.toList) := by
  have reachable := Reachable.start settings canvas
  have between : ∀ first, orderly false first = true →
      (∀ outcome ∈ (Drawing.start settings canvas).outcomes first, outcome = .done) →
        quoteOpen false first = false →
          ((Drawing.start settings canvas).perform first).buffer.column = 0 := by
    intro first ordered done closed
    rw [← literalOpen_of_orderly ordered] at closed
    exact (reachable.betweenLines (fun _ => ⟨rfl, rfl⟩) done closed).column
  refine ⟨between requests ordered done, ?_⟩
  rintro earlier request later rfl before added
  rw [orderly_append, orderly, Bool.and_eq_true] at ordered
  obtain ⟨orderedEarlier, fits, -⟩ := ordered
  rw [Drawing.outcomes_append] at done
  have doneEarlier : ∀ outcome ∈ (Drawing.start settings canvas).outcomes earlier,
      outcome = .done := fun outcome member => done outcome (List.mem_append_left _ member)
  have here : (before.serve request).2 = .done :=
    done _ (List.mem_append_right _ List.mem_cons_self)
  have singleEarlier : ∀ request ∈ earlier, ∀ text ∈ request.call.texts, SingleLine text :=
    fun request member => single request (List.mem_append_left _ member)
  have texts := single request (List.mem_append_right _ List.mem_cons_self)
  have beforeReachable : Reachable before := reachable.of_perform earlier
  have appended := (beforeReachable.effect (Drawing.call_of_outcome here)).appended
    beforeReachable.balanced fits texts
  refine ⟨?_, ?_⟩
  · intro closed
    have column := between earlier orderedEarlier doneEarlier closed
    rw [closed] at fits appended
    exact ⟨column, appended.startsAt column fits texts⟩
  · have filled : quoteOpen false earlier = true → before.buffer.Filled :=
      reachable.filled nofun doneEarlier orderedEarlier singleEarlier
    rw [quoteOpen, openBehind, List.foldl_append]
    exact (appended.continues fits texts filled).2

/-- A path literal inside a scope, broken before its last command. -/
theorem indentation_shows_nesting_across_lines :
    let serve : Call → Request := fun call => ⟨{}, call⟩
    let earlier := [serve (.instruct (.bracket .openScope)), serve (.instruct (.path .start)),
      serve (.instruct (.path (.segment .absolute (.move 1 2))))]
    let line := serve (.instruct (.path (.segment .absolute (.line 30 40))))
    let later := [serve (.instruct (.path .finish))]
    let before := (Drawing.start { wrapColumn := 12 } ⟨8, 8, .empty⟩).perform earlier
    let last := (Drawing.start { wrapColumn := 12 } ⟨8, 8, .empty⟩).perform
      (earlier ++ line :: later)
    last.buffer.column = 0 ∧ last.program = "push graphic-context\n path 'M1,2\n  L30,40'\n" ∧
      before.added (before.serve line).1 = "\n  L30,40" ∧ before.depthOf line.call = 1 ∧
      ContinuesAt (before.depthOf line.call) true (before.added (before.serve line).1).toList := by
  intro serve earlier line later before last
  have nesting := indentation_shows_nesting { wrapColumn := 12 } ⟨8, 8, .empty⟩
    (earlier ++ line :: later) (by decide +kernel) rfl (by decide)
  refine ⟨?_, by decide +kernel, by decide +kernel, by decide +kernel, ?_⟩
  · simpa only [last] using nesting.1 rfl
  · exact (nesting.2 earlier line later rfl).2 fun _ _ => nofun

/-- A command of path data without a literal around it leaves its line unfinished, and the point
behind it starts in the middle of that line. -/
theorem stray_command_breaks_indentation :
    let serve : Call → Request := fun call => ⟨{}, call⟩
    let earlier := [serve (.instruct (.bracket .openScope)),
      serve (.instruct (.path (.segment .absolute (.move 1 2))))]
    let point := serve (.instruct (.shape (.point 1 2)))
    let start := Drawing.start {} ⟨8, 8, .empty⟩
    let before := start.perform earlier
    (∀ outcome ∈ start.outcomes (earlier ++ [point]), outcome = .done) ∧
      quoteOpen false earlier = false ∧ before.buffer.column ≠ 0 ∧
      before.depthOf point.call = 1 ∧
      ¬ StartsAt 1 (before.added (before.serve point).1).toList := by
  intro serve earlier point start before
  have added : before.added (before.serve point).1 = "point 1,2\n" := by decide +kernel
  refine ⟨by decide +kernel, rfl, by decide +kernel, by decide +kernel, ?_⟩
  rw [added]
  rintro (empty | ⟨rest, spaced, -⟩)
  · exact absurd empty (by decide)
  · have first : some 'p' = some ' ' := congrArg List.head? spaced
    cases first

end Quill
