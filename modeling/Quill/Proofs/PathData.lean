import Quill.Proofs.Plan
import Quill.Proofs.Run
import Quill.Proofs.WhiteSpace

/-!
# What path calls write

Between its quotes a path literal is a run of commands behind gaps of white space.  Every command
is its letter, unless that of the command before stands for it too, and its groups of
coordinates.  Indentation, line breaks and the space that a command brings along are all part of
the gap before it, which is empty before the first command at most.
-/

namespace Quill

namespace Path

/-- A command of a path: closing the subpath, or a segment in a mode. -/
inductive Command where
  | close
  | segment (mode : Mode) (segment : Segment)

/-- The characters of a token behind its space. -/
def Token.letters : Token → List Char
  | .first letter | .command letter => [letter]
  | .continued => []

/-- The space that a token starts with, if any. -/
def Token.gap : Token → List Char
  | .first _ => []
  | .command _ | .continued => [' ']

theorem Token.isSpacing_gap (token : Token) : IsSpacing token.gap := by
  cases token with
  | first letter => exact fun _ member => nomatch member
  | _ => exact List.forall_mem_singleton.mpr (.inl rfl)

theorem Token.toList_text (token : Token) : token.text.toList = token.gap ++ token.letters := by
  cases token with
  | first letter => exact String.toList_ofList
  | command letter => exact String.toList_ofList
  | continued => rfl

namespace Command

def step : Command → Step
  | .close => .close
  | .segment mode command => .segment mode command

def call (command : Command) : Call :=
  .instruct (.path command.step)

def operation : Command → Operation
  | .close => .close
  | .segment _ command => command.operation

def mode (state : State) : Command → Mode
  | .close => state.closeMode
  | .segment mode _ => mode.orAbsolute

def groups : Command → List String
  | .close => []
  | .segment _ command => command.groups

def next (state : State) (command : Command) : State :=
  ⟨command.operation, command.mode state⟩

def token (state : State) (command : Command) : Token :=
  state.token command.operation (command.mode state)

/-- The characters of a command behind a state, apart from the space they may begin with. -/
def written (state : State) (command : Command) : List Char :=
  (command.token state).letters ++ (" ".intercalate command.groups).toList

theorem operation_ne_none (command : Command) : command.operation ≠ .none := by
  cases command with
  | close => exact Operation.noConfusion
  | segment mode command => cases command <;> exact Operation.noConfusion

theorem plan_step (command : Command) (drawing : Drawing) :
    command.step.plan drawing =
      .write [.wrapping ((command.token drawing.path).text ++ " ".intercalate command.groups)]
        (.path (command.next drawing.path)) := by
  cases command with
  | close =>
      rw [groups, String.intercalate_nil, String.append_empty]
      rfl
  | segment mode command => rfl

/-- Only the first command of a path has no space before it. -/
theorem token_gap_ne_nil {state : State} (command : Command) (begun : state.operation ≠ .none) :
    (command.token state).gap ≠ [] := by
  rw [token, State.token]
  split
  · exact List.cons_ne_nil _ _
  · exact List.cons_ne_nil _ _

end Command

/-- The characters that commands behind a state may be written in, up to the closing quote. -/
inductive Data : State → List Command → List Char → Prop
  | done {state : State} {gap : List Char}
      (spacing : IsSpacing gap) : Data state [] gap
  | command {state : State} {command : Command} {commands : List Command}
      {gap text : List Char} (spacing : IsSpacing gap)
      (apart : state.operation ≠ .none → gap ≠ [])
      (rest : Data (command.next state) commands text) :
      Data state (command :: commands) (gap ++ (command.written state ++ text))

section Calls

variable {tools : Tools} {drawing after : Drawing} {step : Step}

theorem Step.done (called : drawing.call tools (.instruct (.path step)) = (after, .done)) :
    (step.plan drawing).Done drawing after := by
  have planned : (Call.instruct (.path step)).plan? tools drawing = some (step.plan drawing) := rfl
  rw [Drawing.call_eq_run planned] at called
  exact Plan.run_done called

/-- A command is written behind a gap of white space. -/
theorem Command.done {command : Command}
    (called : drawing.call tools command.call = (after, .done)) :
    ∃ gap, after.program.toList = drawing.program.toList ++ (gap ++ command.written drawing.path) ∧
      IsSpacing gap ∧
      (drawing.path.operation ≠ .none → gap ≠ []) ∧
      after.path = command.next drawing.path := by
  have done := Step.done called
  rw [plan_step] at done
  cases done with
  | write usable =>
      obtain ⟨gap, grows, spacing⟩ := Buffer.wrote_wrapping_grows drawing.layout drawing.buffer
        ((command.token drawing.path).text ++ " ".intercalate command.groups)
      refine ⟨gap.toList ++ (command.token drawing.path).gap, ?_, ?_, ?_, rfl⟩
      · have text := congrArg String.toList grows.text
        simp only [String.toList_append, Token.toList_text, List.append_assoc] at text
        rw [written, List.append_assoc]
        exact text
      · exact spacing.append (command.token drawing.path).isSpacing_gap
      · intro begun empty
        exact command.token_gap_ne_nil begun (List.append_eq_nil_iff.mp empty).2

theorem start_done (called : drawing.call tools (.instruct (.path .start)) = (after, .done)) :
    ∃ padding, after.program = drawing.program ++ (spaces padding ++ "path '") ∧
      after.path = {} := by
  cases Step.done called with
  | write usable => exact ⟨_, (Buffer.extended_grows drawing.buffer "path '").text, rfl⟩

theorem finish_done (called : drawing.call tools (.instruct (.path .finish)) = (after, .done)) :
    ∃ padding, after.program = drawing.program ++ (spaces padding ++ "'\n") := by
  cases Step.done called with
  | write usable => exact ⟨_, (Buffer.extended_grows drawing.buffer "'\n").text⟩

/-- The calls of commands and of the closing quote write path data and the quote. -/
theorem data_of_run {commands : List Command}
    (run : Run drawing (commands.map (fun command => ⟨command.call, .done⟩) ++
      [⟨.instruct (.path .finish), .done⟩]) after) :
    ∃ data, Data drawing.path commands data ∧
      after.program.toList = drawing.program.toList ++ (data ++ "'\n".toList) := by
  induction commands generalizing drawing with
  | nil =>
      obtain ⟨tools, closed, called, rest⟩ := run.head
      obtain ⟨padding, program⟩ := finish_done called
      refine ⟨(spaces padding).toList, .done (isSpacing_spaces padding), ?_⟩
      rw [rest.eq_of_nil, program, String.toList_append, String.toList_append]
  | cons command commands ih =>
      obtain ⟨tools, next, called, rest⟩ := run.head
      obtain ⟨gap, program, spacing, apart, path⟩ := Command.done called
      obtain ⟨data, written, behind⟩ := ih rest
      rw [path] at written
      refine ⟨_, .command spacing apart written, ?_⟩
      rw [behind, program]
      simp only [List.append_assoc]

/-- A path that is begun, written and finished stands in the program between two quotes. -/
theorem data_of_path {commands : List Command}
    (run : Run drawing (⟨.instruct (.path .start), .done⟩ ::
      (commands.map (fun command => ⟨command.call, .done⟩) ++
        [⟨.instruct (.path .finish), .done⟩])) after) :
    ∃ padding data, Data {} commands data ∧
      after.program.toList =
        drawing.program.toList ++ (spaces padding ++ "path '").toList ++ data ++
          "'\n".toList := by
  obtain ⟨tools, started, called, rest⟩ := run.head
  obtain ⟨padding, program, path⟩ := start_done called
  obtain ⟨data, written, behind⟩ := data_of_run rest
  rw [path] at written
  refine ⟨padding, data, written, ?_⟩
  rw [behind, program, String.toList_append]
  simp only [List.append_assoc]

end Calls

end Path

end Quill
