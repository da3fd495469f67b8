import Quill.Proofs.Bracketless
import Quill.Proofs.Capture

/-!
# The brackets that a pattern is read to have

A bracket is written in a line of its own, unless an unfinished path stands before it in its line.
While a pattern is open, what is read of the lines that a call appends is the bracket that it opens
or closes at the start of a line.
-/

namespace Quill

def Bracket.line : Bracket → BracketLine
  | .openScope => .push "graphic-context"
  | .closeScope => .pop "graphic-context"
  | .openPattern _ _ _ _ _ => .push "pattern"
  | .closePattern => .pop "pattern"
  | .openClipPath _ => .push "clip-path"
  | .closeClipPath => .pop "clip-path"
  | .openDefs => .push "defs"
  | .closeDefs => .pop "defs"

def Call.bracketLine? : Call → Option BracketLine
  | .instruct (.bracket bracket) => some bracket.line
  | _ => none

namespace Drawing

/-- What an event says about brackets at the start of a line. -/
def bracketLine? (drawing : Drawing) (event : Event) : Option BracketLine :=
  if event.outcome = .done ∧ drawing.buffer.column = 0 then event.call.bracketLine? else none

/-- The brackets that requests open and close at the start of a line. -/
def bracketLines (drawing : Drawing) : List Request → List BracketLine
  | [] => []
  | request :: rest =>
    (drawing.bracketLine? ⟨request.call, (drawing.serve request).2⟩).toList ++
      (drawing.serve request).1.bracketLines rest

/-- Requests open and close brackets at the start of a line only. -/
def BracketsStartLines (drawing : Drawing) : List Request → Prop
  | [] => True
  | request :: rest =>
    (request.call.bracketLine?.isSome → (drawing.serve request).2 = .done →
      drawing.buffer.column = 0) ∧ (drawing.serve request).1.BracketsStartLines rest

instance decidableBracketsStartLines :
    ∀ (drawing : Drawing) (requests : List Request), Decidable (drawing.BracketsStartLines requests)
  | _, [] => inferInstanceAs (Decidable True)
  | drawing, request :: rest =>
    have := decidableBracketsStartLines (drawing.serve request).1 rest
    inferInstanceAs (Decidable (_ ∧ _))

end Drawing

/-- What stands behind a base in a buffer has been read. -/
structure Buffer.ReadAs (buffer : Buffer) (base : String) (reader : LineReader) : Prop where
  text : ∃ body, buffer.text = base ++ body ∧ reader = LineReader.read {} body.toList
  column : buffer.column = reader.line.length

section Buffers

variable {buffer : Buffer} {base text : String} {reader : LineReader} {line : BracketLine}

theorem columnAfter_read (reader : LineReader) (text : List Char) :
    columnAfter reader.line.length text = (reader.read text).line.length := by
  induction text generalizing reader with
  | nil => rfl
  | cons character rest ih =>
      have others := ih (reader.step character)
      rw [LineReader.read, columnAfter] at others ⊢
      rw [List.foldl_cons, List.foldl_cons, ← others, LineReader.step]
      split <;> simp

theorem newline_notMem_spaces (count : Nat) : '\n' ∉ (spaces count).toList := by
  simp [spaces, List.mem_replicate]

namespace Buffer.ReadAs

theorem extended (reads : buffer.ReadAs base reader) (text : String) :
    (buffer.extended text).ReadAs base
      (reader.read ((spaces (buffer.indent - buffer.column)).toList ++ text.toList)) := by
  obtain ⟨body, equal, read⟩ := reads.text
  refine ⟨⟨body ++ spaces (buffer.indent - buffer.column) ++ text, ?_, ?_⟩, ?_⟩
  · rw [Buffer.extended, equal]
    simp only [String.append_assoc]
  · rw [read]
    simp only [String.toList_append, LineReader.read_append]
  · have padded := reader.read_line (newline_notMem_spaces (buffer.indent - buffer.column))
    rw [LineReader.read_append, ← columnAfter_read, padded, Buffer.extended, reads.column]
    simp [spaces]

theorem wrote (reads : buffer.ReadAs base reader) (layout : Layout) (piece : Piece) :
    ∃ gap, IsSpacing gap ∧
      (buffer.wrote layout piece).ReadAs base (reader.read (gap ++ piece.text.toList)) := by
  have newline : IsSpacing "\n".toList := List.forall_mem_singleton.mpr (.inr rfl)
  cases piece with
  | plain text => exact ⟨_, isSpacing_spaces _, reads.extended text⟩
  | wrapping text =>
      rw [Buffer.wrote]
      split
      · have broken := (reads.extended "\n").extended text
        rw [← LineReader.read_append, ← List.append_assoc] at broken
        exact ⟨_, ((isSpacing_spaces _).append newline).append (isSpacing_spaces _), broken⟩
      · exact ⟨_, isSpacing_spaces _, reads.extended text⟩

/-- Pieces that say nothing about brackets leave what was found as it is. -/
theorem wroteEach {pieces : List Piece} (reads : buffer.ReadAs base reader)
    (rest : AtRest reader.line) (layout : Layout)
    (bracketless : ∀ piece ∈ pieces, Bracketless piece.text.toList) :
    ∃ after, (pieces.foldl (Buffer.wrote layout) buffer).ReadAs base after ∧
      AtRest after.line ∧ after.found = reader.found := by
  induction pieces generalizing buffer reader with
  | nil => exact ⟨reader, reads, rest, rfl⟩
  | cons piece others ih =>
      obtain ⟨here, later⟩ := List.forall_mem_cons.mp bracketless
      obtain ⟨gap, spacing, first⟩ := reads.wrote layout piece
      obtain ⟨found, settles⟩ := here.behind spacing reader rest.settled
      obtain ⟨after, readsAll, restAfter, same⟩ := ih first settles later
      exact ⟨after, readsAll, restAfter, same.trans found⟩

/-- The line of a bracket is found where a line starts, and nothing is found elsewhere. -/
theorem bracket (reads : buffer.ReadAs base reader) (rest : AtRest reader.line)
    (single : SingleLine text)
    (tells : ∀ gap, IsSpacing gap → Quill.bracketLine? (gap ++ text.toList) = some line) :
    ∃ after, (buffer.extended (text ++ "\n")).ReadAs base after ∧ AtRest after.line ∧
      after.found = reader.found ++ (if buffer.column = 0 then some line else none).toList := by
  refine ⟨_, reads.extended _, ?_⟩
  have alone : '\n' ∉ (spaces (buffer.indent - buffer.column)).toList ++ text.toList := by
    rw [List.mem_append, not_or]
    exact ⟨newline_notMem_spaces _, single⟩
  have newline : "\n".toList = ['\n'] := rfl
  rw [String.toList_append, newline, ← List.append_assoc, LineReader.read_append,
    reader.read_line alone, LineReader.read_newline, LineReader.all]
  refine ⟨.inl rfl, congrArg (fun line : Option BracketLine => reader.found ++ line.toList) ?_⟩
  rcases rest with empty | foreign
  · have start : buffer.column = 0 := by rw [reads.column, empty, List.length_nil]
    rw [if_pos start, empty, List.nil_append]
    exact tells _ (isSpacing_spaces _)
  · have inside : buffer.column ≠ 0 := by
      intro start
      rw [reads.column, List.length_eq_zero_iff] at start
      have silent := foreign text.toList
      rw [start, tells [] (List.forall_mem_nil _)] at silent
      cases silent
    rw [if_neg inside]
    exact foreign _

end Buffer.ReadAs

end Buffers

section Steps

variable {tools : Tools} {drawing after : Drawing} {call : Call} {outcome : Outcome}
  {bracket : Bracket} {text base : String} {change : Change} {reader : LineReader}
  {capture : Capture}

theorem Call.Plain.bracketLine? (plain : call.Plain) : call.bracketLine? = none := by
  unfold Call.bracketLine?
  split
  · exact (plain _ rfl).elim
  · rfl

theorem graphicContext_isWord :
    ' ' ∉ "graphic-context".toList ∧ SingleLine "graphic-context" := by
  decide

theorem defs_isWord : ' ' ∉ "defs".toList ∧ SingleLine "defs" := by
  decide

theorem BracketLine.Leads.tells {keyword word : String} {meaning : String → BracketLine}
    (leads : Leads keyword meaning) (isWord : ' ' ∉ word.toList ∧ SingleLine word) :
    SingleLine (keyword ++ " " ++ word) ∧ ∀ gap, IsSpacing gap →
      Quill.bracketLine? (gap ++ (keyword ++ " " ++ word).toList) = some (meaning word) := by
  obtain ⟨spaceless, single⟩ := isWord
  refine ⟨singleLine_append.mpr ⟨by cases leads <;> decide, single⟩, ?_⟩
  intro gap spacing
  exact bracketLine?_alone leads spacing spaceless single

/-- The line that opens a bracket inside a pattern says which one. -/
theorem Bracket.Opens.tells (opens : bracket.Opens drawing text change)
    (recording : drawing.pattern = some capture)
    (single : ∀ text ∈ (Call.instruct (.bracket bracket)).texts, SingleLine text) :
    SingleLine text ∧
      ∀ gap, IsSpacing gap → Quill.bracketLine? (gap ++ text.toList) = some bracket.line := by
  cases opens with
  | scope => exact BracketLine.Leads.push.tells graphicContext_isWord
  | pattern vacant =>
      rw [vacant] at recording
      cases recording
  | @clipPath id =>
      have named : SingleLine id := single id List.mem_cons_self
      have split : ("push clip-path " ++ id).toList =
          ("push" ++ " ").toList ++ ("clip-path".toList ++ ' ' :: id.toList) := by
        simp
      refine ⟨singleLine_append.mpr ⟨by decide, named⟩, fun gap spacing => ?_⟩
      rw [split]
      refine bracketLine?_leading .push spacing (by decide) rfl ?_
      rw [List.mem_append, List.mem_cons, not_or, not_or]
      exact ⟨by decide, by decide, named⟩
  | defs => exact BracketLine.Leads.push.tells defs_isWord

/-- The line that closes a bracket says which one. -/
theorem Bracket.Closes.tells (closes : bracket.Closes drawing text change) :
    SingleLine text ∧
      ∀ gap, IsSpacing gap → Quill.bracketLine? (gap ++ text.toList) = some bracket.line := by
  cases closes with
  | scope nested => exact BracketLine.Leads.pop.tells graphicContext_isWord
  | pattern opened =>
      have isWord : ' ' ∉ "pattern".toList ∧ SingleLine "pattern" := by decide
      exact BracketLine.Leads.pop.tells isWord
  | clipPath opened =>
      have isWord : ' ' ∉ "clip-path".toList ∧ SingleLine "clip-path" := by decide
      exact BracketLine.Leads.pop.tells isWord
  | defs opened => exact BracketLine.Leads.pop.tells defs_isWord

theorem Buffer.ReadAs.reindent {buffer : Buffer} (reads : buffer.ReadAs base reader)
    (indent : Nat) : Buffer.ReadAs { buffer with indent := indent } base reader :=
  ⟨reads.text, reads.column⟩

theorem Drawing.bracketLine?_of_none (none : call.bracketLine? = none) :
    drawing.bracketLine? ⟨call, outcome⟩ = Option.none := by
  simp [bracketLine?, none]

theorem Drawing.bracketLine?_of_start
    (start : call.bracketLine?.isSome → outcome = .done → drawing.buffer.column = 0) :
    drawing.bracketLine? ⟨call, outcome⟩ =
      if outcome = .done then call.bracketLine? else Option.none := by
  cases told : call.bracketLine? with
  | none => simp [bracketLine?, told]
  | some line =>
      have starts := start (Option.isSome_of_eq_some told)
      by_cases done : outcome = .done
      · simp [bracketLine?, told, done, starts done]
      · simp [bracketLine?, done]

/-- While a pattern is open, a call appends what its event says about brackets, and nothing else
that is about brackets. -/
theorem Effect.reads (effect : Effect tools drawing call after outcome)
    (recording : drawing.pattern = some capture) (recorded : after.pattern.isSome)
    (undropped : call ≠ .dropProgram) (single : Request.SingleLine ⟨tools, call⟩)
    (reads : drawing.buffer.ReadAs base reader) (rest : AtRest reader.line) :
    ∃ further, after.buffer.ReadAs base further ∧ AtRest further.line ∧
      further.found = reader.found ++ (drawing.bracketLine? ⟨call, outcome⟩).toList := by
  have still : drawing.bracketLine? ⟨call, outcome⟩ = none → after.buffer = drawing.buffer →
      ∃ further, after.buffer.ReadAs base further ∧ AtRest further.line ∧
        further.found = reader.found ++ (drawing.bracketLine? ⟨call, outcome⟩).toList := by
    intro none same
    rw [same, none]
    exact ⟨reader, reads, rest, by simp⟩
  cases effect with
  | failed planned | refused poisoned | misdrawn usable draws =>
      exact still (by simp [Drawing.bracketLine?]) rfl
  | aborted flat | rendered usable draws | forgotten =>
      exact still (Drawing.bracketLine?_of_none rfl) rfl
  | kept planned plain | adjusted planned plain =>
      exact still (Drawing.bracketLine?_of_none plain.bracketLine?) rfl
  | wrote planned plain inner usable =>
      have bracketless := Call.plan?_bracketless planned plain single
      obtain ⟨further, readsAll, restsAll, same⟩ := reads.wroteEach rest drawing.layout bracketless
      rw [Drawing.bracketLine?_of_none plain.bracketLine?]
      refine ⟨further, ?_, restsAll, by simp [same]⟩
      cases inner <;> exact readsAll
  | opened opens usable =>
      obtain ⟨alone, tells⟩ := opens.tells recording single.texts
      obtain ⟨further, readsAll, restsAll, found⟩ := reads.bracket rest alone tells
      refine ⟨further, ?_, restsAll, ?_⟩
      · cases opens <;> exact readsAll.reindent _
      · simpa [Drawing.bracketLine?, Call.bracketLine?] using found
  | closed closes usable =>
      obtain ⟨alone, tells⟩ := closes.tells
      have outward := reads.reindent (drawing.buffer.indent - 1)
      obtain ⟨further, readsAll, restsAll, found⟩ := outward.bracket rest alone tells
      refine ⟨further, ?_, restsAll, ?_⟩
      · cases closes with
        | scope nested =>
            obtain ⟨top, outer, popped, -⟩ := ContextStack.pop?_of_nested nested
            simp only [Change.apply, popped]
            exact readsAll
        | pattern opened => cases recorded
        | clipPath opened | defs opened => exact readsAll
      · simpa [Drawing.bracketLine?, Call.bracketLine?] using found
  | dropped => exact (undropped rfl).elim
  | cleared => cases recorded

end Steps

end Quill
