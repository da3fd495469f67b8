import Mathlib.Data.List.Chain
import Quill.Proofs.PathArguments

/-!
# What a path draws

A path literal is read by the grammar of SVG path data as the commands that were called, with one
exception.  A move that repeats a move in the same mode leaves its letter out like any other
command, but the grammar reads arguments behind a move as those of a line.
-/

namespace Quill.Path

open Grammar Lexing

def Segment.numbers : Segment → List Float
  | .move x y | .line x y | .smoothQuadratic x y => [x, y]
  | .horizontal x => [x]
  | .vertical y => [y]
  | .curve x1 y1 x2 y2 x y => [x1, y1, x2, y2, x, y]
  | .quadratic x1 y1 x y => [x1, y1, x, y]
  | .smoothCurve x2 y2 x y => [x2, y2, x, y]
  | .arc rx ry rotation _ _ x y => [rx, ry, rotation, x, y]

def Command.numbers : Command → List Float
  | .close => []
  | .segment _ figure => figure.numbers

/-- What a command means behind another if a move that repeats a move in the same mode is taken for
a line. -/
def Meaning.drawn (last : State) (meaning : Meaning) : Meaning :=
  if meaning.operation = .move ∧ last = ⟨.move, meaning.mode⟩ then
    { meaning with operation := .line }
  else meaning

/-- Take every move that repeats the move before it in the same mode for a line. -/
def implicitLines (last : State) : List Meaning → List Meaning
  | [] => []
  | meaning :: rest => meaning.drawn last :: implicitLines ⟨meaning.operation, meaning.mode⟩ rest

section Segments

theorem fits_coordinate {value : Float} (finite : Number.isFinite value) :
    Fits .number (Number.coordinate value) :=
  .number (Number.isNumeral_coordinate finite)

variable {kinds : List Kind} {arguments : List String} {text : List Char}

theorem spelled_pair {x y : Float} (finite : Number.isFinite x) (finite' : Number.isFinite y) :
    Spelled [.number, .number] [Number.coordinate x, Number.coordinate y]
      (Number.coordinatePair x y).toList := by
  have pair : (Number.coordinatePair x y).toList =
      (Number.coordinate x).toList ++ ',' :: (Number.coordinate y).toList := by
    rw [Number.coordinatePair, String.toList_append, String.toList_append, List.append_assoc]
    rfl
  rw [pair]
  exact .more (fits_coordinate finite) (.inr rfl) (.last (fits_coordinate finite'))

theorem spelled_pair_more {x y : Float} {kind : Kind} (finite : Number.isFinite x)
    (finite' : Number.isFinite y) (others : Spelled (kind :: kinds) arguments text) :
    Spelled (.number :: .number :: kind :: kinds)
      (Number.coordinate x :: Number.coordinate y :: arguments)
      ((Number.coordinatePair x y).toList ++ ' ' :: text) := by
  have pair : (Number.coordinatePair x y).toList ++ ' ' :: text =
      (Number.coordinate x).toList ++ ',' :: ((Number.coordinate y).toList ++ ' ' :: text) := by
    rw [Number.coordinatePair, String.toList_append, String.toList_append]
    simp only [List.append_assoc]
    rfl
  rw [pair]
  exact .more (fits_coordinate finite) (.inr rfl)
    (.more (fits_coordinate finite') (.inl rfl) others)

theorem toList_intercalate_cons (first second : String) (rest : List String) :
    (" ".intercalate (first :: second :: rest)).toList =
      first.toList ++ ' ' :: (" ".intercalate (second :: rest)).toList := by
  rw [String.intercalate_cons_cons, String.toList_append, String.toList_append, List.append_assoc]
  rfl

/-- A segment spells out its arguments. -/
theorem Segment.spelled (segment : Segment)
    (finite : ∀ number ∈ segment.numbers, Number.isFinite number) :
    Spelled (Grammar.kinds segment.operation) segment.arguments segment.coordinates.toList := by
  rw [coordinates]
  cases segment with
  | move x y | line x y | smoothQuadratic x y =>
      simp only [numbers, List.forall_mem_cons] at finite
      obtain ⟨hx, hy, -⟩ := finite
      rw [groups, String.intercalate_singleton]
      exact spelled_pair hx hy
  | horizontal x =>
      rw [groups, String.intercalate_singleton]
      exact .last (fits_coordinate (finite x List.mem_cons_self))
  | vertical y =>
      rw [groups, String.intercalate_singleton]
      exact .last (fits_coordinate (finite y List.mem_cons_self))
  | quadratic x1 y1 x y | smoothCurve x1 y1 x y =>
      simp only [numbers, List.forall_mem_cons] at finite
      obtain ⟨hx1, hy1, hx, hy, -⟩ := finite
      rw [groups, toList_intercalate_cons, String.intercalate_singleton]
      exact spelled_pair_more hx1 hy1 (spelled_pair hx hy)
  | curve x1 y1 x2 y2 x y =>
      simp only [numbers, List.forall_mem_cons] at finite
      obtain ⟨hx1, hy1, hx2, hy2, hx, hy, -⟩ := finite
      rw [groups, toList_intercalate_cons, toList_intercalate_cons, String.intercalate_singleton]
      exact spelled_pair_more hx1 hy1 (spelled_pair_more hx2 hy2 (spelled_pair hx hy))
  | arc rx ry rotation large sweep x y =>
      simp only [numbers, List.forall_mem_cons] at finite
      obtain ⟨hrx, hry, hrotation, hx, hy, -⟩ := finite
      simp only [groups, toList_intercalate_cons, String.intercalate_singleton]
      exact spelled_pair_more hrx hry (.more (fits_coordinate hrotation) (.inl rfl)
        (.more (.flag large) (.inl rfl) (.more (.flag sweep) (.inl rfl) (spelled_pair hx hy))))

end Segments

namespace Grammar

variable {state last : State} {text rest gap : List Char} {commands : List Command}

theorem separate_skip (text : List Char) : separate (skip text) = separate text := by
  rw [separate, separate, skip_skip]

theorem commands?_skip (last : State) (text : List Char) :
    commands? last (skip text) = commands? last text := by
  have same : command? last (skip text) = command? last text := by
    rw [command?, command?, skip_skip, separate_skip]
  rw [commands?, commands?, skip_skip, same]

theorem command?_of_skip (nothing : skip text = []) : command? last text = none := by
  rw [command?, nothing]

theorem command?_letter {letter : Char} {current : State}
    (named : ofLetter? letter = some current) (spacing : IsSpacing gap) (behind : List Char) :
    command? last (gap ++ letter :: behind) = complete? current (skip behind) := by
  rw [command?, skip_spacing spacing, (solid_of_letter named behind).skip]
  simp only [named]

theorem command?_follower {first : Char} (leads : Number.isLeading first)
    (spacing : IsSpacing gap) (behind : List Char) :
    command? last (gap ++ first :: behind) =
      (follower? last).bind fun current => complete? current (first :: behind) := by
  rw [command?, skip_spacing spacing, (solid_of_isLeading leads behind).skip,
    separate_of_leading leads spacing]
  simp only [ofLetter?_of_isLeading leads]

theorem complete?_segment {segment : Segment} {current : State}
    (finite : ∀ number ∈ segment.numbers, Number.isFinite number)
    (alike : kinds current.operation = kinds segment.operation) (stops : Stops rest) :
    complete? current (segment.coordinates.toList ++ rest) =
      some (⟨current.operation, current.mode, segment.arguments⟩, rest) := by
  rw [complete?, alike, arguments?_spelled (segment.spelled finite) stops]
  rfl

/-- Taking a move for a line does not change what follows it. -/
theorem follower?_drawn (meaning : Meaning) (last : State) :
    follower? ⟨(meaning.drawn last).operation, (meaning.drawn last).mode⟩ =
      follower? ⟨meaning.operation, meaning.mode⟩ := by
  rw [Meaning.drawn]
  split
  · rename_i repeated
    simp only [follower?, repeated.1]
  · rfl

/-- A segment that repeats another is read in its place, unless it is a move. -/
theorem drawn_repeated (segment : Segment) (mode : Mode) (arguments : List String) :
    ∃ operation, kinds operation = kinds segment.operation ∧
      follower? ⟨segment.operation, mode⟩ = some ⟨operation, mode⟩ ∧
      Meaning.drawn ⟨segment.operation, mode⟩ ⟨segment.operation, mode, arguments⟩ =
        ⟨operation, mode, arguments⟩ := by
  cases segment with
  | move x y => exact ⟨.line, rfl, rfl, if_pos ⟨rfl, rfl⟩⟩
  | _ => exact ⟨_, rfl, rfl, rfl⟩

theorem letters_of_repeated {command : Command} (open' : command.operation ≠ .close)
    (repeated : state = command.next state) : (command.token state).letters = [] := by
  rw [Command.token, State.token, if_pos ⟨open', repeated⟩]
  rfl

/-- A command is read as what it draws, and what stands behind it is left but for white space. -/
theorem command?_written {command : Command}
    (finite : ∀ number ∈ command.numbers, Number.isFinite number)
    (same : follower? last = follower? state) (spacing : IsSpacing gap) (stops : Stops rest) :
    ∃ behind, command? last (gap ++ (command.written state ++ rest)) =
        some ((command.meaning state.closeMode).drawn state, behind) ∧
      skip behind = skip rest := by
  cases command with
  | close =>
      rcases Command.close.letters_cases state with ⟨-, -, other⟩ | ⟨letter, one, named⟩
      · exact (other rfl).elim
      · refine ⟨skip rest, ?_, skip_skip rest⟩
        have written : Command.close.written state = [letter] := by
          rw [Command.written, one]
          rfl
        rw [written, List.cons_append, command?_letter named spacing]
        rfl
  | segment mode segment =>
      refine ⟨rest, ?_, rfl⟩
      obtain ⟨first, others, begins, leads⟩ := (segment.spelled finite).leading
      rcases (Command.segment mode segment).letters_cases state with
        ⟨none, repeated, -⟩ | ⟨letter, one, named⟩
      · have written : (Command.segment mode segment).written state =
            segment.coordinates.toList := by
          rw [Command.written, none]
          rfl
        obtain ⟨operation, alike, follows, drawn⟩ :=
          drawn_repeated segment mode.orAbsolute segment.arguments
        have here : state = ⟨segment.operation, mode.orAbsolute⟩ := repeated.symm
        have meant : ((Command.segment mode segment).meaning state.closeMode).drawn state =
            ⟨operation, mode.orAbsolute, segment.arguments⟩ := by
          rw [here]
          exact drawn
        have completes : complete? ⟨operation, mode.orAbsolute⟩
            (segment.coordinates.toList ++ rest) =
              some (⟨operation, mode.orAbsolute, segment.arguments⟩, rest) :=
          complete?_segment finite alike stops
        rw [begins] at completes
        rw [written, begins, List.cons_append, command?_follower leads spacing, same, here, follows,
          ← here, meant]
        exact completes
      · have written : (Command.segment mode segment).written state =
            letter :: segment.coordinates.toList := by
          rw [Command.written, one]
          rfl
        have kept : skip (segment.coordinates.toList ++ rest) =
            segment.coordinates.toList ++ rest := by
          rw [begins]
          exact (solid_of_isLeading leads _).skip
        have anew : ¬ (segment.operation = .move ∧ state = ⟨.move, mode.orAbsolute⟩) := by
          rintro ⟨move, repeated⟩
          have other : (Command.segment mode segment).operation ≠ .close := by
            rw [Command.operation, move]
            exact Operation.noConfusion
          have again : state = (Command.segment mode segment).next state := by
            rw [repeated, ← move]
            rfl
          have none := letters_of_repeated other again
          rw [one] at none
          cases none
        have meant : ((Command.segment mode segment).meaning state.closeMode).drawn state =
            ⟨segment.operation, mode.orAbsolute, segment.arguments⟩ := if_neg anew
        rw [written, List.cons_append, command?_letter named spacing, kept, meant]
        exact complete?_segment finite rfl stops

end Grammar

section Data

variable {state : State} {commands : List Command} {text : List Char}

/-- Behind a command path data goes on with a space or a newline, or ends. -/
theorem Data.stops (data : Data state commands text) (begun : state.operation ≠ .none) :
    Stops text := by
  intro character head
  cases data with
  | done spacing => exact (spacing character (List.mem_of_mem_head? head)).imp_right .inl
  | command spacing apart rest =>
      obtain ⟨first, others, rfl⟩ := List.exists_cons_of_ne_nil (apart begun)
      cases head
      exact (spacing _ List.mem_cons_self).imp_right .inl

/-- Path data is read as what its commands draw.  Of the last command only that matters which may
follow it without a letter. -/
theorem Data.commands? (data : Data state commands text)
    (finite : ∀ command ∈ commands, ∀ number ∈ command.numbers, Number.isFinite number)
    {last : State}
    (same : follower? last = follower? state) :
    Grammar.commands? last text =
      some (implicitLines state (meanings state.closeMode commands)) := by
  induction data generalizing last with
  | @done state gap spacing =>
      have nothing : skip (gap ++ []) = [] := skip_spacing spacing []
      rw [List.append_nil] at nothing
      rw [Grammar.commands?, if_pos nothing]
      rfl
  | @command state command commands gap text spacing apart rest ih =>
      obtain ⟨here, later⟩ := List.forall_mem_cons.mp finite
      obtain ⟨behind, read, left⟩ :=
        command?_written here same spacing (rest.stops command.operation_ne_none)
      have something : skip (gap ++ (command.written state ++ text)) ≠ [] := by
        intro nothing
        rw [command?_of_skip nothing] at read
        cases read
      have follows := follower?_drawn (command.meaning state.closeMode) state
      have next : (⟨(command.meaning state.closeMode).operation,
          (command.meaning state.closeMode).mode⟩ : State) = command.next state := by
        cases command <;> rfl
      rw [next] at follows
      rw [Grammar.commands?, if_neg something, read]
      simp only
      rw [← commands?_skip, left, commands?_skip, ih later follows, meanings, implicitLines, next,
        command.mode_meaning]
      rfl

end Data

/-- The first command of a path is read as it is. -/
theorem Meaning.drawn_start (meaning : Meaning) : meaning.drawn {} = meaning := by
  refine if_neg ?_
  rintro ⟨-, begun⟩
  cases begun

theorem data?_of_commands? {text : List Char} {command : Command} {commands : List Command}
    (read : Grammar.commands? {} text =
      some (implicitLines {} (meanings .absolute (command :: commands)))) :
    Grammar.data? text =
      if command.operation = .move then
        some (implicitLines {} (meanings .absolute (command :: commands)))
      else none := by
  have operation : (command.meaning .absolute).operation = command.operation := by
    cases command <;> rfl
  rw [data?, read, meanings, implicitLines, Meaning.drawn_start]
  simp only [operation]

/-- Without a move that repeats a move in the same mode, no move is taken for a line. -/
theorem implicitLines_of_unrepeated {last : State} {meanings : List Meaning}
    (unrepeated : meanings.IsChain fun first second =>
      ¬ (first.operation = .move ∧ second.operation = .move ∧ first.mode = second.mode))
    (anew : ∀ meaning ∈ meanings.head?,
      ¬ (meaning.operation = .move ∧ last = ⟨.move, meaning.mode⟩)) :
    implicitLines last meanings = meanings := by
  induction meanings generalizing last with
  | nil => rfl
  | cons meaning rest ih =>
      obtain ⟨next, others⟩ := List.isChain_cons.mp unrepeated
      have kept : meaning.drawn last = meaning := if_neg (anew meaning rfl)
      rw [implicitLines, kept, ih others]
      rintro second head ⟨move, repeated⟩
      obtain ⟨operation, mode⟩ := State.mk.inj repeated
      exact next second head ⟨operation, move, mode⟩

/-- A path that is begun, written with finite coordinates and finished is read by the grammar of
path data as the commands that were called, but for moves that repeat a move in the same mode:
those are read as lines.  The literal as a whole is path data exactly if it begins with a move, or
has no commands. -/
theorem literal_draws_commands {drawing closed : Drawing} {commands : List Command}
    (finite : ∀ command ∈ commands, ∀ number ∈ command.numbers, Number.isFinite number)
    (run : Run drawing (⟨.instruct (.path .start), .done⟩ ::
      (commands.map (fun command => ⟨.instruct (.path command.step), .done⟩) ++
        [⟨.instruct (.path .finish), .done⟩])) closed) :
    ∃ padding data,
      closed.program.toList =
        drawing.program.toList ++ (spaces padding ++ "path '").toList ++ data ++
          "'\n".toList ∧
      Grammar.commands? {} data = some (implicitLines {} (meanings .absolute commands)) ∧
      ((meanings .absolute commands).IsChain (fun first second =>
          ¬ (first.operation = .move ∧ second.operation = .move ∧ first.mode = second.mode)) →
        Grammar.commands? {} data = some (meanings .absolute commands)) ∧
      ((∀ command ∈ commands.head?, command.operation = .move) →
        Grammar.data? data = some (implicitLines {} (meanings .absolute commands))) ∧
      ((∃ command ∈ commands.head?, command.operation ≠ .move) → Grammar.data? data = none) := by
  obtain ⟨padding, data, written, program⟩ := data_of_path run
  have read : Grammar.commands? {} data =
      some (implicitLines {} (meanings .absolute commands)) := written.commands? finite rfl
  refine ⟨padding, data, program, read, ?_, ?_, ?_⟩
  · intro unrepeated
    rw [read, implicitLines_of_unrepeated unrepeated]
    rintro meaning - ⟨-, begun⟩
    cases begun
  · intro begins
    cases commands with
    | nil =>
        rw [data?, read]
        rfl
    | cons command commands => rw [data?_of_commands? read, if_pos (begins command rfl)]
  · rintro ⟨command, head, other⟩
    cases commands with
    | nil => cases head
    | cons first commands =>
        cases head
        rw [data?_of_commands? read, if_neg other]

/-- Letters left out behind a move and behind a line, an arc, an exponent and broken lines. -/
theorem literal_draws_commands_across_lines :
    ∃ closed : Drawing,
      closed.program = "path 'M1,2 3,4\n l-0.5,1e+06 5,6\n A1,2 30 0 1 7,8\n Z'\n" ∧
      ∃ padding data,
        closed.program.toList = (spaces padding ++ "path '").toList ++ data ++ "'\n".toList ∧
        Grammar.data? data = some [⟨.move, .absolute, ["1", "2"]⟩, ⟨.line, .absolute, ["3", "4"]⟩,
          ⟨.line, .relative, ["-0.5", "1e+06"]⟩, ⟨.line, .relative, ["5", "6"]⟩,
          ⟨.arc, .absolute, ["1", "2", "30", "0", "1", "7", "8"]⟩, ⟨.close, .absolute, []⟩] := by
  let drawing := Drawing.start { wrapColumn := 16 } ⟨64, 64, .empty⟩
  let commands : List Command := [.segment .unset (.move 1 2), .segment .absolute (.move 3 4),
    .segment .relative (.line (-0.5) 1000000), .segment .relative (.line 5 6),
    .segment .absolute (.arc 1 2 30 false true 7 8), .close]
  let calls : List Call := .instruct (.path .start) ::
    (commands.map (fun command => .instruct (.path command.step)) ++
      [.instruct (.path .finish)])
  have finite : ∀ command ∈ commands, ∀ number ∈ command.numbers, Number.isFinite number := by
    decide +kernel
  have done : ∀ event ∈ drawing.events {} calls, event.outcome = .done := by
    decide +kernel
  have run : Run drawing (⟨.instruct (.path .start), .done⟩ ::
      (commands.map (fun command => ⟨.instruct (.path command.step), .done⟩) ++
        [⟨.instruct (.path .finish), .done⟩])) (drawing.calls {} calls) :=
    Run.calls_done done
  obtain ⟨padding, data, program, -, -, draws, -⟩ := literal_draws_commands finite run
  have begins : ∀ command ∈ commands.head?, command.operation = .move := by
    intro command head
    cases head
    rfl
  have drawn : implicitLines {} (meanings .absolute commands) =
      [⟨.move, .absolute, ["1", "2"]⟩, ⟨.line, .absolute, ["3", "4"]⟩,
        ⟨.line, .relative, ["-0.5", "1e+06"]⟩, ⟨.line, .relative, ["5", "6"]⟩,
        ⟨.arc, .absolute, ["1", "2", "30", "0", "1", "7", "8"]⟩, ⟨.close, .absolute, []⟩] := by
    decide +kernel
  refine ⟨drawing.calls {} calls, by decide +kernel, padding, data, program, ?_⟩
  rw [draws begins, drawn]

/-- A move that repeats a move leaves its letter out, and so is not read as a move. -/
theorem repeated_move_draws_line :
    ∃ closed : Drawing,
      Run (Drawing.start {} ⟨64, 64, .empty⟩)
        [⟨.instruct (.path .start), .done⟩,
          ⟨.instruct (.path (.segment .absolute (.move 1 2))), .done⟩,
          ⟨.instruct (.path (.segment .absolute (.move 3 4))), .done⟩,
          ⟨.instruct (.path .finish), .done⟩] closed ∧
      closed.program = "path 'M1,2 3,4'\n" ∧
      Grammar.data? "M1,2 3,4".toList =
        some [⟨.move, .absolute, ["1", "2"]⟩, ⟨.line, .absolute, ["3", "4"]⟩] ∧
      Grammar.data? "M1,2 3,4".toList ≠ some (meanings .absolute
        [.segment .absolute (.move 1 2), .segment .absolute (.move 3 4)]) := by
  let calls : List Call := [.instruct (.path .start),
    .instruct (.path (.segment .absolute (.move 1 2))),
    .instruct (.path (.segment .absolute (.move 3 4))), .instruct (.path .finish)]
  have done : ∀ event ∈ (Drawing.start {} ⟨64, 64, .empty⟩).events {} calls,
      event.outcome = .done := by
    decide +kernel
  have move : command? {} "M1,2 3,4".toList =
      some (⟨.move, .absolute, ["1", "2"]⟩, " 3,4".toList) := by
    decide +kernel
  have line : command? ⟨.move, .absolute⟩ " 3,4".toList =
      some (⟨.line, .absolute, ["3", "4"]⟩, []) := by
    decide +kernel
  have reads : Grammar.data? "M1,2 3,4".toList =
      some [⟨.move, .absolute, ["1", "2"]⟩, ⟨.line, .absolute, ["3", "4"]⟩] := by
    rw [data?, Grammar.commands?, if_neg (by decide +kernel), move]
    simp only
    rw [Grammar.commands?, if_neg (by decide +kernel), line]
    simp only
    rw [Grammar.commands?, if_pos (show skip [] = [] from rfl)]
    rfl
  refine ⟨_, Run.calls_done done, by decide +kernel, reads, ?_⟩
  rw [reads]
  decide +kernel

end Quill.Path
