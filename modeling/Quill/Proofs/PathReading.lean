import Quill.Proofs.PathWords

/-!
# Reading path data back

Path data is split at its white space, and the words are read one after the other.  A word that
starts with a letter sets the operation and the mode, any other repeats those of the command
before, and every operation takes its own number of words as groups of arguments.  Read in this
way, the literal that a path is written in gives back all of its commands, in their order, with
their modes and with the texts of all their arguments.
-/

namespace Quill.Path

/-- What a command means: its operation, its mode and the texts of its arguments. -/
structure Meaning where
  operation : Operation
  mode : Mode
  arguments : List String
  deriving DecidableEq, Repr

def Command.meaning (last : Mode) : Command → Meaning
  | .close => ⟨.close, last, []⟩
  | .segment mode command => ⟨command.operation, mode.orAbsolute, command.arguments⟩

def meanings (last : Mode) : List Command → List Meaning
  | [] => []
  | command :: rest =>
    command.meaning last :: meanings (command.meaning last).mode rest

/-- How far path data has been read.  Between commands the last one is known, and within a
command how many groups are missing and which arguments have been read; what has been finished
stands in reverse. -/
inductive Reader where
  | between (last : State) (finished : List Meaning)
  | within (current : State) (missing : Nat) (arguments : List String) (finished : List Meaning)
  | invalid

namespace Reader

/-- Read a group of arguments, behind which a number of groups is still missing. -/
def take (current : State) (missing : Nat) (arguments : List String) (finished : List Meaning)
    (group : List Char) : Reader :=
  let arguments := arguments ++ splitGroup group
  match missing with
  | 0 => .between current (⟨current.operation, current.mode, arguments⟩ :: finished)
  | missing + 1 => .within current (missing + 1) arguments finished

/-- Begin a command with what its first word has behind the letter. -/
def begin (current : State) (finished : List Meaning) (group : List Char) : Reader :=
  match current.operation.arity with
  | 0 =>
    if group.isEmpty then
      .between current (⟨current.operation, current.mode, []⟩ :: finished)
    else .invalid
  | missing + 1 => take current missing [] finished group

def step : Reader → List Char → Reader
  | .between _ _, [] => .invalid
  | .between last finished, first :: rest =>
    match ofLetter? first with
    | some current => begin current finished rest
    | none => begin last finished (first :: rest)
  | .within current (missing + 1) arguments finished, group =>
    take current missing arguments finished group
  | .within _ 0 _ _, _ => .invalid
  | .invalid, _ => .invalid

/-- What has been read if no command is left open. -/
def finish? : Reader → Option (List Meaning)
  | .between _ finished => some finished.reverse
  | _ => none

end Reader

def read? (data : List Char) : Option (List Meaning) :=
  ((words data).foldl Reader.step (.between {} [])).finish?

/-- A command hands on the mode that it is read in. -/
theorem Command.mode_meaning (state : State) (command : Command) :
    (command.meaning state.closeMode).mode = (command.next state).closeMode := by
  cases command with
  | close =>
      simp only [meaning, next, mode, State.closeMode]
      split <;> rfl
  | segment mode command => cases mode <;> rfl

namespace Reader

variable {finished : List Meaning}

theorem foldl_take (current : State) (arguments : List String) (finished : List Meaning)
    (group : List Char) (others : List (List Char)) :
    others.foldl step (take current others.length arguments finished group) =
      .between current
        (⟨current.operation, current.mode, arguments ++ (group :: others).flatMap splitGroup⟩ ::
          finished) := by
  induction others generalizing arguments group with
  | nil => simp [take]
  | cons next rest ih =>
      have taken : step (take current (rest.length + 1) arguments finished group) next =
          take current rest.length (arguments ++ splitGroup group) finished next := rfl
      rw [List.foldl_cons, List.length_cons, taken, ih]
      simp only [List.flatMap_cons, List.append_assoc]

/-- The first word of a command begins it, whether its letter stands there or not. -/
theorem step_first (state : State) (command : Command) {first : List Char}
    (isGroup : IsGroup first) :
    step (.between state finished) ((command.token state).letters ++ first) =
      begin (command.next state) finished first := by
  rcases command.letters_cases state with ⟨none, same, -⟩ | ⟨letter, one, named⟩
  · obtain ⟨character, rest, rfl, leading⟩ := isGroup.leading
    rw [none, List.nil_append, step, ofLetter?_of_isLeading leading, same]
  · rw [one, List.cons_append, List.nil_append, step, named]

/-- The words of a command are read as what it means. -/
theorem foldl_words (state : State) (command : Command) (finished : List Meaning) :
    (command.words state).foldl step (.between state finished) =
      .between (command.next state) (command.meaning state.closeMode :: finished) := by
  cases command with
  | close =>
      rcases Command.close.letters_cases state with ⟨-, -, other⟩ | ⟨letter, one, named⟩
      · exact (other rfl).elim
      · simp only [Command.words, Command.groups, one, List.foldl_cons, List.foldl_nil, step,
          named]
        rfl
  | segment mode segment =>
      have isGroup := segment.isGroup
      have arity := segment.length_groups
      have arguments := segment.flatMap_splitGroup
      simp only [Command.words, Command.groups]
      cases groups : segment.groups with
      | nil => cases segment <;> cases groups
      | cons first others =>
          rw [groups] at isGroup arity arguments
          have count : ((Command.segment mode segment).next state).operation.arity =
              (others.map String.toList).length + 1 := by
            rw [List.length_map]
            exact arity.symm
          simp only [List.foldl_cons]
          rw [step_first state _ (isGroup first List.mem_cons_self), begin, count]
          simp only [foldl_take, ← List.map_cons, arguments, List.nil_append]
          rfl

end Reader

section Data

variable {state : State} {commands : List Command} {text : List Char}

/-- Path data is read as what its commands mean.  The last word of a command ends at the gap of the
next one, which is not empty. -/
theorem Data.foldl_words (data : Data state commands text) (finished : List Meaning) :
    ∃ last, (words text).foldl Reader.step (.between state finished) =
      .between last ((meanings state.closeMode commands).reverse ++ finished) := by
  induction data generalizing finished with
  | @done state gap spacing =>
      refine ⟨state, ?_⟩
      have none := words_gap spacing.isBlank []
      rw [List.append_nil] at none
      rw [none]
      rfl
  | @command state command commands gap text spacing apart rest ih =>
      have behind := rest.apart command.operation_ne_none
      obtain ⟨last, reads⟩ := ih (command.meaning state.closeMode :: finished)
      refine ⟨last, ?_⟩
      rw [words_gap spacing.isBlank, command.written_eq_words,
        words_intercalate (command.words_isWord state) behind, List.foldl_append,
        Reader.foldl_words, reads, meanings, command.mode_meaning, List.reverse_cons,
        List.append_assoc]
      rfl

theorem Data.read? (data : Data {} commands text) :
    Path.read? text = some (meanings .absolute commands) := by
  obtain ⟨last, reads⟩ := data.foldl_words []
  rw [Path.read?, reads, Reader.finish?, List.append_nil, List.reverse_reverse]
  rfl

end Data

/-- A path that is begun, written and finished stands between two quotes in the program, and is
read as the commands that were called. -/
theorem literal_reads_back {drawing closed : Drawing} {commands : List Command}
    (run : Run drawing (⟨.instruct (.path .start), .done⟩ ::
      (commands.map (fun command => ⟨.instruct (.path command.step), .done⟩) ++
        [⟨.instruct (.path .finish), .done⟩])) closed) :
    ∃ padding data,
      closed.program.toList =
        drawing.program.toList ++ (spaces padding ++ "path '").toList ++ data ++
          "'\n".toList ∧
      '\'' ∉ data ∧ read? data = some (meanings .absolute commands) := by
  obtain ⟨padding, data, written, program⟩ := data_of_path run
  exact ⟨padding, data, program, written.quoteless, written.read?⟩

/-- Letters left out, an unset mode, two closings and two broken lines, inside a scope. -/
theorem literal_reads_back_across_lines :
    ∃ closed : Drawing,
      closed.program = "push graphic-context\n path 'M1,2 3,4\n  l-inf,0.5\n  nan,6 z z'\n" ∧
      ∃ padding data,
        closed.program.toList =
          "push graphic-context\n".toList ++ (spaces padding ++ "path '").toList ++ data ++
            "'\n".toList ∧
        '\'' ∉ data ∧
        read? data = some [⟨.move, .absolute, ["1", "2"]⟩, ⟨.move, .absolute, ["3", "4"]⟩,
          ⟨.line, .relative, ["-inf", "0.5"]⟩, ⟨.line, .relative, ["nan", "6"]⟩,
          ⟨.close, .relative, []⟩, ⟨.close, .relative, []⟩] := by
  let drawing := (Drawing.start { wrapColumn := 16 } ⟨64, 64, .empty⟩).calls {}
    [.instruct (.bracket .openScope)]
  let commands : List Command := [.segment .unset (.move 1 2), .segment .absolute (.move 3 4),
    .segment .relative (.line (-1 / 0) 0.5), .segment .relative (.line (0 / 0) 6), .close, .close]
  let calls : List Call := .instruct (.path .start) ::
    (commands.map (fun command => .instruct (.path command.step)) ++
      [.instruct (.path .finish)])
  have done : ∀ event ∈ drawing.events {} calls, event.outcome = .done := by
    decide +kernel
  have run : Run drawing (⟨.instruct (.path .start), .done⟩ ::
      (commands.map (fun command => ⟨.instruct (.path command.step), .done⟩) ++
        [⟨.instruct (.path .finish), .done⟩])) (drawing.calls {} calls) :=
    Run.calls_done done
  obtain ⟨padding, data, program, quoteless, reads⟩ := literal_reads_back run
  have before : drawing.program = "push graphic-context\n" := by
    decide +kernel
  have meant : meanings .absolute commands =
      [⟨.move, .absolute, ["1", "2"]⟩, ⟨.move, .absolute, ["3", "4"]⟩,
        ⟨.line, .relative, ["-inf", "0.5"]⟩, ⟨.line, .relative, ["nan", "6"]⟩,
        ⟨.close, .relative, []⟩, ⟨.close, .relative, []⟩] := by
    decide +kernel
  rw [before] at program
  rw [meant] at reads
  exact ⟨drawing.calls {} calls, by decide +kernel, padding, data, program, quoteless, reads⟩

end Quill.Path
