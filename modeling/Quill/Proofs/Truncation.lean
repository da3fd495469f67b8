import Quill.Proofs.Growing

/-!
# Truncation

A text can be cut off only between two of its characters or at one of its ends.  Offsets that
were positions of a text are positions of every longer one, and a buffer is rewound only to where
it has been while the text was growing.  So writing that gives up at the first cut inside a
character or past the end writes whatever can be written: there is no such cut.
-/

namespace Quill

namespace Buffer

variable {layout : Layout} {buffer longer : Buffer} {added : String} {offset : Nat}

/-- A byte offset is a position of a buffer if it lies between two characters of the text or at
one of its ends. -/
def HasPosition (buffer : Buffer) (offset : Nat) : Prop :=
  String.Pos.Raw.IsValid buffer.text ⟨offset⟩

instance : Decidable (buffer.HasPosition offset) :=
  inferInstanceAs (Decidable (String.Pos.Raw.IsValid _ _))

theorem hasPosition_iff : buffer.HasPosition offset ↔
    ∃ before after, buffer.text = before ++ after ∧ before.utf8ByteSize = offset := by
  simp only [HasPosition, String.Pos.Raw.isValid_iff_exists_append, String.Pos.Raw.ext_iff,
    String.byteIdx_rawEndPos, eq_comm]

theorem HasPosition.le_size (position : buffer.HasPosition offset) : offset ≤ buffer.size := by
  obtain ⟨before, after, text, rfl⟩ := hasPosition_iff.mp position
  rw [size, text, String.utf8ByteSize_append]
  exact Nat.le_add_right _ _

theorem hasPosition_zero (buffer : Buffer) : buffer.HasPosition 0 :=
  hasPosition_iff.mpr ⟨"", buffer.text, String.empty_append.symm, rfl⟩

theorem hasPosition_size (buffer : Buffer) : buffer.HasPosition buffer.size :=
  hasPosition_iff.mpr ⟨buffer.text, "", String.append_empty.symm, rfl⟩

/-- The positions of a text stay positions while it grows. -/
theorem HasPosition.append (position : buffer.HasPosition offset)
    (text : longer.text = buffer.text ++ added) : longer.HasPosition offset := by
  rw [HasPosition, text]
  exact String.Pos.Raw.IsValid.append_right position added

/-- Cut a buffer off behind a mark, if that can be done. -/
def truncate? (buffer : Buffer) (mark : Mark) : Option Buffer :=
  if buffer.HasPosition mark.length then some (buffer.rewind mark) else none

/-- A buffer that has grown can be cut off where it was. -/
theorem Grows.truncate? (grows : Grows buffer longer added) :
    longer.truncate? buffer.mark = some (longer.rewind buffer.mark) :=
  if_pos (buffer.hasPosition_size.append grows.text)

theorem truncate?_mark (buffer : Buffer) :
    buffer.truncate? buffer.mark = some (buffer.rewind buffer.mark) :=
  (Grows.refl buffer).truncate?

/-- Append a text, on a new line if it would run past the wrap column.  Gives up where the line
break cannot be cut off again. -/
def appendWrapping? (layout : Layout) (buffer : Buffer) (text : String) :
    Option (Buffer × Except Failure Nat) :=
  if pieceLimit < text.utf8ByteSize then some (buffer.appendWrapping layout text)
  else
    let start :=
      if buffer.breaksLine layout text then buffer.append layout "\n" else (buffer, .ok 0)
    match start with
    | (broken, .error failure) => (broken.truncate? buffer.mark).map (·, .error failure)
    | (broken, .ok breakCount) =>
      match broken.append layout text with
      | (written, .ok count) => some (written, .ok (breakCount + count))
      | (unwritten, .error failure) =>
        (unwritten.truncate? buffer.mark).map (·, .error failure)

/-- Write one piece, or give up at a cut that cannot be made. -/
def put? (layout : Layout) (buffer : Buffer) : Piece → Option (Buffer × Except Failure Nat)
  | .plain text => some (buffer.append layout text)
  | .wrapping text => buffer.appendWrapping? layout text

/-- Write pieces up to the first that fails, or give up at a cut that cannot be made. -/
def putEach? (layout : Layout) (buffer : Buffer) :
    List Piece → Option (Buffer × Except Failure Nat)
  | [] => some (buffer, .ok 0)
  | piece :: rest => do
    match ← buffer.put? layout piece with
    | (written, .ok count) =>
      match ← putEach? layout written rest with
      | (all, .ok further) => some (all, .ok (count + further))
      | (partly, .error failure) => some (partly, .error failure)
    | (unwritten, .error failure) => some (unwritten, .error failure)

/-- Write the pieces of an instruction or take back those before one that fails, or give up at a
cut that cannot be made. -/
def putAll? (layout : Layout) (buffer : Buffer) (pieces : List Piece) :
    Option (Buffer × Except Failure Nat) := do
  match ← buffer.putEach? layout pieces with
  | (written, .ok count) => some (written, .ok count)
  | (partly, .error failure) => (partly.truncate? buffer.mark).map (·, .error failure)

theorem appendWrapping?_eq (buffer : Buffer) (text : String) :
    buffer.appendWrapping? layout text = some (buffer.appendWrapping layout text) := by
  by_cases long : pieceLimit < text.utf8ByteSize
  · rw [appendWrapping?, if_pos long]
  simp only [appendWrapping?, appendWrapping, if_neg long]
  by_cases breaks : buffer.breaksLine layout text = true
  · simp only [if_pos breaks]
    rcases first : buffer.append layout "\n" with ⟨broken, failure | breakCount⟩
    · simp only [(append_error first).1, truncate?_mark, Option.map_some]
    · rcases second : broken.append layout text with ⟨written, failure | count⟩
      · have grows : Grows buffer broken _ := append_ok first ▸ extended_grows buffer "\n"
        simp only [second, (append_error second).1, grows.truncate?, Option.map_some]
      · simp only [second]
  · simp only [if_neg breaks]
    rcases only : buffer.append layout text with ⟨written, failure | count⟩
    · simp only [(append_error only).1, truncate?_mark, Option.map_some]
    · rfl

theorem put?_eq (buffer : Buffer) (piece : Piece) :
    buffer.put? layout piece = some (buffer.put layout piece) := by
  cases piece with
  | plain text => rfl
  | wrapping text => exact appendWrapping?_eq buffer text

theorem putEach?_eq (buffer : Buffer) (pieces : List Piece) :
    buffer.putEach? layout pieces = some (buffer.putEach layout pieces) := by
  induction pieces generalizing buffer with
  | nil => rfl
  | cons piece rest ih =>
      rw [putEach?, putEach, put?_eq, Option.bind_eq_bind, Option.bind_some]
      rcases buffer.put layout piece with ⟨written, failure | count⟩
      · rfl
      · simp only [ih, Option.bind_some]
        rcases written.putEach layout rest with ⟨partly, failure | further⟩ <;> rfl

/-- Every cut that writing an instruction comes to can be made. -/
theorem putAll?_eq (layout : Layout) (buffer : Buffer) (pieces : List Piece) :
    buffer.putAll? layout pieces = some (buffer.putAll layout pieces) := by
  rw [putAll?, putAll, putEach?_eq, Option.bind_eq_bind, Option.bind_some]
  rcases each : buffer.putEach layout pieces with ⟨partly, failure | count⟩
  · obtain ⟨added, grows⟩ := putEach_error each
    simp only [grows.truncate?, Option.map_some]
  · rfl

end Buffer

end Quill
