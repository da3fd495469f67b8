import Quill.Proofs.InstructionLines
import Quill.Proofs.SignificantText

/-!
# Lines and the wrap column

An instruction that is written in several pieces is broken in front of a piece that would run past
the wrap column.  Every line of it is therefore no wider than that column, unless a single piece
behind its indentation already is.  This is so for the whole of a path literal but its closing
quote, which is written without a look at the column: behind a line that is filled to the last
character it stands one character too far out.
-/

namespace Quill

/-- A buffer goes on behind another one in rows of text that are no wider than a bound: finished
rows, and a last one, which ends at the column. -/
structure Buffer.Rows (bound : Nat) (start buffer : Buffer) (rows : List String) (last : String) :
    Prop where
  grows : Grows start buffer (String.join (rows.map (· ++ "\n")) ++ last)
  column : buffer.column = last.length
  filled : buffer.Filled
  single : ∀ row ∈ rows ++ [last], SingleLine row
  narrow : ∀ row ∈ rows ++ [last], row.length ≤ bound

section Texts

variable {text : String} {layout : Layout} {buffer : Buffer}

theorem length_spaces (count : Nat) : (spaces count).length = count := by
  rw [spaces, String.length_ofList, List.length_replicate]

theorem join_rows_concat (rows : List String) (last : String) :
    String.join ((rows ++ [last]).map (· ++ "\n")) =
      String.join (rows.map (· ++ "\n")) ++ last ++ "\n" := by
  induction rows with
  | nil => simp
  | cons first others ih =>
      rw [List.cons_append, List.map_cons, String.join_cons, ih, List.map_cons, String.join_cons]
      simp only [String.append_assoc]

/-- A text that starts no new line ends within the wrap column. -/
theorem Buffer.column_le_of_unbroken (single : SingleLine text)
    (unbroken : buffer.breaksLine layout text = false) :
    buffer.column + text.length ≤ layout.wrapColumn := by
  have last : (text.toList.getLast? != some '\n') = true := by
    rw [bne_iff_ne]
    intro newline
    exact single (List.mem_of_getLast? newline)
  rw [breaksLine, last, Bool.and_true] at unbroken
  simpa using unbroken

end Texts

namespace Buffer

variable {bound : Nat} {layout : Layout} {start buffer : Buffer} {rows : List String}
  {last text : String}

/-- The first piece of an instruction, at the start of a line. -/
theorem Rows.first (column : start.column = 0) (single : SingleLine text)
    (fits : start.indent + text.length ≤ bound) :
    Rows bound start (start.extended text) [] (spaces start.indent ++ text) := by
  have grows := start.extended_grows text
  rw [column, Nat.sub_zero] at grows
  have length : (spaces start.indent ++ text).length = start.indent + text.length := by
    rw [String.length_append, length_spaces]
  refine ⟨?_, ?_, start.extended_filled single, ?_, ?_⟩
  · simpa using grows
  · rw [extended, column, columnAfter_single single, length, String.length_toList]
    simp
  · exact List.forall_mem_singleton.mpr (single.behind_spaces _)
  · exact List.forall_mem_singleton.mpr (length ▸ fits)

/-- A piece that is written behind the last row on the same line. -/
theorem Rows.extend (written : Rows bound start buffer rows last) (single : SingleLine text)
    (fits : last.length + text.length ≤ bound) :
    Rows bound start (buffer.extended text) rows (last ++ text) := by
  obtain ⟨own, here⟩ := List.forall_mem_append.mp written.single
  obtain ⟨narrow, -⟩ := List.forall_mem_append.mp written.narrow
  refine ⟨?_, ?_, buffer.extended_filled single, ?_, ?_⟩
  · have grows := written.grows.trans (written.filled.extended_grows text)
    rwa [String.append_assoc] at grows
  · have gap : buffer.indent - buffer.column = 0 := Nat.sub_eq_zero_of_le written.filled
    rw [extended, gap, columnAfter_single single, written.column, String.length_append,
      String.length_toList, Nat.add_zero]
  · refine List.forall_mem_append.mpr ⟨own, List.forall_mem_singleton.mpr ?_⟩
    exact singleLine_append.mpr ⟨List.forall_mem_singleton.mp here, single⟩
  · refine List.forall_mem_append.mpr ⟨narrow, List.forall_mem_singleton.mpr ?_⟩
    rwa [String.length_append]

/-- A piece that is moved to a row of its own. -/
theorem Rows.break (written : Rows bound start buffer rows last) (single : SingleLine text)
    (fits : start.indent + text.length ≤ bound) :
    Rows bound start ((buffer.extended "\n").extended text) (rows ++ [last])
      (spaces start.indent ++ text) := by
  have indent : (buffer.extended "\n").indent = start.indent := written.grows.indent
  have column : (buffer.extended "\n").column = 0 := buffer.column_line ""
  have begun := Rows.first column single (indent.symm ▸ fits)
  rw [indent] at begun
  refine ⟨?_, begun.column, begun.filled, ?_, ?_⟩
  · have broken := written.grows.trans (written.filled.extended_grows "\n")
    have grows := broken.trans begun.grows
    rw [join_rows_concat]
    simpa using grows
  · exact List.forall_mem_append.mpr ⟨written.single, begun.single⟩
  · exact List.forall_mem_append.mpr ⟨written.narrow, begun.narrow⟩

/-- A wrapping piece goes on in the last row or stands in a row of its own. -/
theorem Rows.wrapping (written : Rows bound start buffer rows last) (single : SingleLine text)
    (wide : layout.wrapColumn ≤ bound) (fits : start.indent + text.length ≤ bound) :
    Rows bound start (buffer.wrote layout (.wrapping text)) rows (last ++ text) ∨
      Rows bound start (buffer.wrote layout (.wrapping text)) (rows ++ [last])
        (spaces start.indent ++ text) := by
  cases breaks : buffer.breaksLine layout text with
  | false =>
      have column := column_le_of_unbroken single breaks
      rw [wrote, breaks, if_neg Bool.false_ne_true]
      exact .inl (written.extend single (by rw [← written.column]; omega))
  | true =>
      rw [wrote, if_pos breaks]
      exact .inr (written.break single fits)

end Buffer

section Lengths

open Number

/-- The text of a double has eleven characters at most, as in `-1.234e-308`. -/
theorem Number.length_coordinate_le (value : Float) : (coordinate value).length ≤ 11 := by
  rw [coordinate, significant]
  split
  · decide
  · split <;> decide
  · rename_i binary finite
    rw [String.length_ofList]
    rcases Nat.eq_zero_or_pos binary.significand with zero | positive
    · rw [Binary.general, if_pos zero, List.length_append, List.length_singleton]
      split <;> decide
    · obtain ⟨rounded, literal, -, text⟩ := Binary.generalText finite (by decide : 0 < 4) positive
      exact text.short

theorem Number.length_coordinatePair_le (x y : Float) : (coordinatePair x y).length ≤ 23 := by
  have first := length_coordinate_le x
  have second := length_coordinate_le y
  have comma : ",".length = 1 := rfl
  simp only [coordinatePair, String.length_append]
  omega

end Lengths

namespace Path

def literal (commands : List Command) : List Call :=
  .instruct (.path .start) :: (commands.map Command.call ++ [.instruct (.path .finish)])

def Command.text (state : State) (command : Command) : String :=
  (command.token state).text ++ " ".intercalate command.groups

section Pieces

theorem Token.length_text_le (token : Token) : token.text.length ≤ 2 := by
  cases token with
  | first letter | command letter =>
      rw [text, String.length_ofList]
      simp
  | continued => decide

/-- A curve has the longest arguments: three points with a space in front of all but the first. -/
theorem Segment.length_coordinates_le (segment : Segment) : segment.coordinates.length ≤ 71 := by
  have number := Number.length_coordinate_le
  have pair := Number.length_coordinatePair_le
  have digit : ∀ value, (flag value).length = 1 := by decide
  have space : " ".length = 1 := rfl
  cases segment with
  | move x y | line x y | smoothQuadratic x y =>
      exact (pair x y).trans (by decide)
  | horizontal x | vertical x => exact (number x).trans (by decide)
  | curve x1 y1 x2 y2 x y =>
      have first := pair x1 y1
      have second := pair x2 y2
      have third := pair x y
      simp only [coordinates, groups, String.intercalate_cons_cons, String.intercalate_singleton,
        String.length_append]
      omega
  | quadratic x1 y1 x y | smoothCurve x1 y1 x y =>
      have first := pair x1 y1
      have second := pair x y
      simp only [coordinates, groups, String.intercalate_cons_cons, String.intercalate_singleton,
        String.length_append]
      omega
  | arc rx ry rotation large sweep x y =>
      have radii := pair rx ry
      have angle := number rotation
      have point := pair x y
      simp only [coordinates, groups, String.intercalate_cons_cons, String.intercalate_singleton,
        String.length_append, digit]
      omega

theorem Command.length_text_le (state : State) (command : Command) :
    (command.text state).length ≤ 73 := by
  have token := (command.token state).length_text_le
  rw [text, String.length_append]
  cases command with
  | close =>
      rw [groups, String.intercalate_nil]
      exact Nat.le_trans token (by decide)
  | segment mode command =>
      have coordinates := command.length_coordinates_le
      rw [Segment.coordinates] at coordinates
      rw [groups]
      omega

end Pieces

section Calls

variable {tools : Tools} {drawing : Drawing} {start : Buffer} {rows : List String} {last : String}

theorem Step.call_done (tools : Tools) (step : Step) {piece : Piece} {state : State}
    (usable : drawing.poisoned = false) (unlimited : drawing.layout.limit = none)
    (planned : step.plan drawing = .write [piece] (.path state)) :
    drawing.call tools (.instruct (.path step)) = ({ drawing with
      buffer := drawing.buffer.wrote drawing.layout piece
      path := state }, .done) := by
  have modest : (step.plan drawing).Modest := step.plan_modest
  have room := Layout.hasRoom_of_unlimited unlimited
  rw [Drawing.call, Instruction.plan]
  rw [planned] at modest ⊢
  exact Plan.Writes.write.run_ok modest usable (room _)

/-- The calls of commands and of the closing quote behind rows of a literal: they are all done, and
the rows go on within the wrap column up to the quote. -/
theorem rows_of_commands (tools : Tools) (commands : List Command)
    (usable : drawing.poisoned = false) (unlimited : drawing.layout.limit = none)
    (wide : start.indent + 73 ≤ drawing.layout.wrapColumn)
    (written : Buffer.Rows drawing.layout.wrapColumn start drawing.buffer rows last) :
    let calls := commands.map Command.call ++ [.instruct (.path .finish)]
    (∀ event ∈ drawing.events tools calls, event.outcome = .done) ∧
      ∃ rows last, (drawing.calls tools calls).program =
          start.text ++ (String.join (rows.map (· ++ "\n")) ++ last ++ "'\n") ∧
        (∀ row ∈ rows ++ [last], SingleLine row) ∧
        ∀ row ∈ rows ++ [last], row.length ≤ drawing.layout.wrapColumn := by
  induction commands generalizing drawing rows last with
  | nil =>
      have called := Step.call_done tools .finish usable unlimited rfl
      have grows := written.grows.trans (written.filled.extended_grows "'\n")
      simp only [List.map_nil, List.nil_append, Drawing.events, Drawing.calls, called]
      exact ⟨List.forall_mem_singleton.mpr rfl, rows, last, grows.text, written.single,
        written.narrow⟩
  | cons command commands ih =>
      have called := Step.call_done tools _ usable unlimited (command.plan_step drawing)
      have single := command.singleLine_piece drawing.path
      have short := command.length_text_le drawing.path
      have fits : start.indent + (command.text drawing.path).length ≤ drawing.layout.wrapColumn :=
        by omega
      have step : ∃ rows last, Buffer.Rows drawing.layout.wrapColumn start
          (drawing.buffer.wrote drawing.layout (.wrapping (command.text drawing.path)))
          rows last := by
        rcases written.wrapping single (Nat.le_refl _) fits with same | broken
        · exact ⟨_, _, same⟩
        · exact ⟨_, _, broken⟩
      obtain ⟨rows, last, goesOn⟩ := step
      let drawn : Drawing := { drawing with
        buffer := drawing.buffer.wrote drawing.layout (.wrapping (command.text drawing.path))
        path := command.next drawing.path }
      obtain ⟨done, behind⟩ := ih (show drawn.poisoned = false from usable) unlimited wide goesOn
      simp only [List.map_cons, List.cons_append, Drawing.events, Drawing.calls, Command.call,
        called]
      exact ⟨List.forall_mem_cons.mpr ⟨rfl, done⟩, behind⟩

/-- A path literal keeps to the wrap column up to its closing quote.  If the column leaves a hundred
characters behind the indentation, then the calls of a path are all done, and no row of the text
that they append is wider than the wrap column if the closing quote, which ends the last row, is
not counted.  With the quote the last row is wider exactly if it was filled to the wrap column. -/
theorem literal_keeps_to_wrap_column (tools : Tools) (commands : List Command)
    (usable : drawing.poisoned = false) (unlimited : drawing.layout.limit = none)
    (column : drawing.buffer.column = 0)
    (wide : drawing.buffer.indent + 100 ≤ drawing.layout.wrapColumn) :
    (∀ event ∈ drawing.events tools (literal commands), event.outcome = .done) ∧
      ∃ rows last, (drawing.calls tools (literal commands)).program =
          drawing.program ++ String.join ((rows ++ [last ++ "'"]).map (· ++ "\n")) ∧
        (∀ row ∈ rows ++ [last], SingleLine row) ∧
        (∀ row ∈ rows ++ [last], row.length ≤ drawing.layout.wrapColumn) ∧
        ((∀ row ∈ rows ++ [last ++ "'"], row.length ≤ drawing.layout.wrapColumn) ↔
          last.length < drawing.layout.wrapColumn) := by
  have called := Step.call_done tools .start usable unlimited rfl
  have opening : "path '".length = 6 := rfl
  let opened : Drawing :=
    { drawing with buffer := drawing.buffer.extended "path '", path := {} }
  have begun : Buffer.Rows drawing.layout.wrapColumn drawing.buffer opened.buffer []
      (spaces drawing.buffer.indent ++ "path '") :=
    .first column (by decide) (by omega)
  obtain ⟨done, rows, last, program, single, narrow⟩ := rows_of_commands tools commands
    (show opened.poisoned = false from usable) unlimited (Nat.le_trans (by omega) wide) begun
  have closing : "'\n" = "'" ++ "\n" := rfl
  simp only [literal, Drawing.events, Drawing.calls, called]
  refine ⟨List.forall_mem_cons.mpr ⟨rfl, done⟩, rows, last, ?_, single, narrow, ?_⟩
  · refine program.trans ?_
    rw [join_rows_concat, closing]
    simp only [String.append_assoc]
    rfl
  · have quoted : (last ++ "'").length = last.length + 1 := by
      rw [String.length_append]
      rfl
    obtain ⟨others, -⟩ := List.forall_mem_append.mp narrow
    rw [List.forall_mem_append, List.forall_mem_singleton, quoted]
    exact ⟨fun within => within.2, fun room => ⟨others, room⟩⟩

/-- Four curves inside a scope, of which the last starts a new line. -/
theorem literal_keeps_to_wrap_column_across_lines :
    let drawing := (Drawing.start { wrapColumn := 101 } ⟨64, 64, .empty⟩).calls {}
      [.instruct (.bracket .openScope)]
    let curve : Command := .segment .absolute (.curve 1000 2000 1000 2000 1000 2000)
    let after := drawing.calls {} (literal [curve, curve, curve, curve])
    after.program = drawing.program ++
        " path 'C1000,2000 1000,2000 1000,2000 1000,2000 1000,2000 1000,2000 1000,2000 " ++
          "1000,2000 1000,2000\n  1000,2000 1000,2000 1000,2000'\n" ∧
      ∃ rows last, after.program =
          drawing.program ++ String.join ((rows ++ [last ++ "'"]).map (· ++ "\n")) ∧
        ∀ row ∈ rows ++ [last], row.length ≤ 101 := by
  intro drawing curve after
  obtain ⟨-, rows, last, program, -, narrow, -⟩ :=
    @literal_keeps_to_wrap_column drawing {} [curve, curve, curve, curve] (by decide +kernel) rfl
      (by decide +kernel) (by decide +kernel)
  exact ⟨by decide +kernel, rows, last, program, narrow⟩

/-- Three curves and two closings fill a line to its hundredth character, and the closing quote is
the one behind it. -/
theorem closing_quote_passes_wrap_column :
    let drawing := Drawing.start { wrapColumn := 100 } ⟨64, 64, .empty⟩
    let curve : Command := .segment .absolute (.curve 1000 2000 1000 2000 1000 2000)
    let calls := literal [curve, curve, curve, .close, .close]
    let line := "path 'C1000,2000 1000,2000 1000,2000 1000,2000 1000,2000 1000,2000 1000,2000 " ++
      "1000,2000 1000,2000 Z Z'"
    (Reachable drawing ∧ drawing.poisoned = false ∧ drawing.layout.limit = none ∧
        drawing.buffer.column = 0 ∧ drawing.buffer.indent + 100 ≤ drawing.layout.wrapColumn) ∧
      (∀ event ∈ drawing.events {} calls, event.outcome = .done) ∧
      (drawing.calls {} calls).program = drawing.program ++ (line ++ "\n") ∧
      SingleLine line ∧ ¬ line.length ≤ drawing.layout.wrapColumn := by
  intro drawing curve calls line
  refine ⟨⟨Reachable.start _ _, rfl, rfl, rfl, by decide⟩, ?_, ?_, ?_, ?_⟩ <;> decide +kernel

end Calls

end Path

end Quill
