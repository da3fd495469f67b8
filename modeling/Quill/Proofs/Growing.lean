import Mathlib.Data.String.Basic
import Quill.Buffer

/-!
# Growing and rewinding a buffer

A write that succeeds appends to the text and leaves the indentation alone, and a mark taken
before it leads back to exactly the buffer it was taken on.  So an instruction of any number of
pieces, wrapped or not, is written whole or leaves no trace.
-/

namespace Quill

theorem splitAtByte_append (before after : List Char) :
    splitAtByte (String.utf8Len before) (before ++ after) = some (before, after) := by
  induction before with
  | nil => simp [splitAtByte]
  | cons character rest ih =>
      have positive := character.utf8Size_pos
      obtain ⟨size, sizeEq⟩ : ∃ size, String.utf8Len rest + character.utf8Size = size + 1 :=
        ⟨String.utf8Len rest + character.utf8Size - 1, by omega⟩
      rw [List.cons_append, String.utf8Len_cons, sizeEq, splitAtByte, if_pos (by omega)]
      have remaining : size + 1 - character.utf8Size = String.utf8Len rest := by omega
      rw [remaining, ih]
      rfl

theorem utf8Len_toList (text : String) : String.utf8Len text.toList = text.utf8ByteSize := by
  rw [← String.utf8ByteSize_ofList, String.ofList_toList]

/-- The byte offset behind a text splits every text that starts with it there. -/
theorem splitAtByte_utf8ByteSize (before after : String) :
    splitAtByte before.utf8ByteSize (before ++ after).toList =
      some (before.toList, after.toList) := by
  rw [String.toList_append, ← utf8Len_toList, splitAtByte_append]

namespace Buffer

variable {layout : Layout} {buffer middle longer after written : Buffer} {added further : String}

/-- A buffer grows by a text if the text is appended to it and its indentation stays. -/
structure Grows (buffer longer : Buffer) (added : String) : Prop where
  text : longer.text = buffer.text ++ added
  indent : longer.indent = buffer.indent

theorem Grows.refl (buffer : Buffer) : Grows buffer buffer "" :=
  ⟨by simp, rfl⟩

theorem Grows.trans (first : Grows buffer middle added) (second : Grows middle longer further) :
    Grows buffer longer (added ++ further) :=
  ⟨by rw [second.text, first.text, String.append_assoc], second.indent.trans first.indent⟩

/-- What stands behind a text is what has been written since its end. -/
theorem since_append {before after : String} (text : buffer.text = before ++ after) :
    buffer.since before.utf8ByteSize = after := by
  rw [Buffer.since, text, splitAtByte_utf8ByteSize]
  exact String.ofList_toList

/-- A text is cut at the length of a mark and gets its column. -/
theorem rewind_of_append {mark : Mark} {before after : String}
    (text : buffer.text = before ++ after) (length : before.utf8ByteSize = mark.length) :
    buffer.rewind mark = { buffer with text := before, column := mark.column } := by
  rw [rewind, text, ← length, splitAtByte_utf8ByteSize]
  dsimp only
  rw [String.ofList_toList]

/-- Rewinding takes a buffer back to where its mark was taken. -/
theorem Grows.rewind (grows : Grows buffer longer added) : longer.rewind buffer.mark = buffer := by
  rw [rewind_of_append grows.text rfl, grows.indent]
  rfl

theorem rewind_mark (buffer : Buffer) : buffer.rewind buffer.mark = buffer :=
  (Grows.refl buffer).rewind

/-- The buffer behind a text and the spaces that lead up to it. -/
def extended (buffer : Buffer) (text : String) : Buffer :=
  { buffer with
    text := buffer.text ++ spaces (buffer.indent - buffer.column) ++ text
    column := columnAfter (buffer.column + (buffer.indent - buffer.column)) text.toList }

/-- The buffer behind a piece. -/
def wrote (layout : Layout) (buffer : Buffer) : Piece → Buffer
  | .plain text => buffer.extended text
  | .wrapping text =>
    if buffer.breaksLine layout text then (buffer.extended "\n").extended text
    else buffer.extended text

theorem extended_grows (buffer : Buffer) (text : String) :
    Grows buffer (buffer.extended text) (spaces (buffer.indent - buffer.column) ++ text) :=
  ⟨by rw [extended, String.append_assoc], rfl⟩

theorem wrote_grows (layout : Layout) (buffer : Buffer) (piece : Piece) :
    ∃ added, Grows buffer (buffer.wrote layout piece) added := by
  cases piece with
  | plain text => exact ⟨_, extended_grows buffer text⟩
  | wrapping text =>
      rw [wrote]
      split
      · exact ⟨_, (extended_grows buffer "\n").trans (extended_grows _ text)⟩
      · exact ⟨_, extended_grows buffer text⟩

theorem wroteEach_grows (layout : Layout) (buffer : Buffer) (pieces : List Piece) :
    ∃ added, Grows buffer (pieces.foldl (wrote layout) buffer) added := by
  induction pieces generalizing buffer with
  | nil => exact ⟨_, Grows.refl buffer⟩
  | cons piece rest ih =>
      obtain ⟨added, first⟩ := wrote_grows layout buffer piece
      obtain ⟨further, others⟩ := ih (buffer.wrote layout piece)
      exact ⟨_, first.trans others⟩

theorem append_ok {text : String} {count : Nat}
    (success : buffer.append layout text = (written, .ok count)) :
    written = buffer.extended text := by
  simp only [append] at success
  split at success
  · simp at success
  · simp only [Prod.mk.injEq] at success
    exact success.1.symm

theorem append_error {text : String} {failure : Failure}
    (failed : buffer.append layout text = (after, .error failure)) :
    after = buffer ∧ failure = .outOfMemory := by
  simp only [append] at failed
  split at failed
  · simp only [Prod.mk.injEq, Except.error.injEq] at failed
    exact ⟨failed.1.symm, failed.2.symm⟩
  · simp at failed

theorem put_ok {piece : Piece} {count : Nat}
    (success : buffer.put layout piece = (written, .ok count)) :
    written = buffer.wrote layout piece := by
  cases piece with
  | plain text => exact append_ok success
  | wrapping text =>
      simp only [put, appendWrapping] at success
      split at success
      · simp at success
      split at success
      · simp at success
      rename_i broken breakCount start
      split at success
      · rename_i last _ appended
        simp only [Prod.mk.injEq] at success
        rw [← success.1, append_ok appended, wrote]
        split at start
        · rename_i breaks
          rw [if_pos breaks, append_ok start]
        · rename_i fits
          simp only [Prod.mk.injEq] at start
          rw [if_neg fits, start.1]
      · simp at success

/-- A piece that cannot be written takes back its line break. -/
theorem put_error {piece : Piece} {failure : Failure}
    (failed : buffer.put layout piece = (after, .error failure)) : after = buffer := by
  cases piece with
  | plain text => exact (append_error failed).1
  | wrapping text =>
      simp only [put, appendWrapping] at failed
      split at failed
      · simp only [Prod.mk.injEq] at failed
        exact failed.1.symm
      split at failed
      · rename_i broken reason start
        simp only [Prod.mk.injEq] at failed
        split at start
        · rw [← failed.1, (append_error start).1, rewind_mark]
        · simp at start
      rename_i broken breakCount start
      split at failed
      · simp at failed
      · rename_i unwritten reason appended
        simp only [Prod.mk.injEq] at failed
        rw [← failed.1, (append_error appended).1]
        split at start
        · rw [append_ok start]
          exact (extended_grows buffer "\n").rewind
        · simp only [Prod.mk.injEq] at start
          rw [← start.1, rewind_mark]

theorem putEach_ok {pieces : List Piece} {count : Nat}
    (success : buffer.putEach layout pieces = (written, .ok count)) :
    written = pieces.foldl (wrote layout) buffer := by
  induction pieces generalizing buffer count with
  | nil =>
      simp only [putEach, Prod.mk.injEq] at success
      exact success.1.symm
  | cons piece rest ih =>
      simp only [putEach] at success
      split at success
      · rename_i next first put
        split at success
        · rename_i all further others
          simp only [Prod.mk.injEq] at success
          obtain ⟨rfl, _⟩ := success
          rw [List.foldl_cons, ← put_ok put]
          exact ih others
        · simp at success
      · simp at success

/-- Pieces that were written before one that cannot be written are still there. -/
theorem putEach_error {pieces : List Piece} {failure : Failure}
    (failed : buffer.putEach layout pieces = (after, .error failure)) :
    ∃ added, Grows buffer after added := by
  induction pieces generalizing buffer with
  | nil => simp [putEach] at failed
  | cons piece rest ih =>
      simp only [putEach] at failed
      split at failed
      · rename_i next first put
        split at failed
        · simp at failed
        · rename_i partly reason others
          simp only [Prod.mk.injEq, Except.error.injEq] at failed
          obtain ⟨rfl, rfl⟩ := failed
          obtain ⟨added, grows⟩ := wrote_grows layout buffer piece
          obtain ⟨further, partlyGrows⟩ := ih others
          rw [put_ok put] at partlyGrows
          exact ⟨_, grows.trans partlyGrows⟩
      · rename_i unwritten reason put
        simp only [Prod.mk.injEq] at failed
        rw [← failed.1, put_error put]
        exact ⟨_, Grows.refl buffer⟩

theorem putAll_ok {pieces : List Piece} {count : Nat}
    (success : buffer.putAll layout pieces = (written, .ok count)) :
    written = pieces.foldl (wrote layout) buffer := by
  simp only [putAll] at success
  split at success
  · rename_i all total put
    simp only [Prod.mk.injEq] at success
    rw [← success.1]
    exact putEach_ok put
  · simp at success

/-- An instruction that cannot be written whole leaves no trace. -/
theorem putAll_error {pieces : List Piece} {failure : Failure}
    (failed : buffer.putAll layout pieces = (after, .error failure)) : after = buffer := by
  simp only [putAll] at failed
  split at failed
  · simp at failed
  · rename_i partly reason put
    simp only [Prod.mk.injEq] at failed
    obtain ⟨added, grows⟩ := putEach_error put
    rw [← failed.1]
    exact grows.rewind

end Buffer

end Quill
