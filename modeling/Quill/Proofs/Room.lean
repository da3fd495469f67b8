import Quill.Proofs.Growing

/-!
# Room under the byte limit

A write looks at the limit in every part that it is made of: the spaces of the indentation, a line
break, each piece of an instruction.  As no part is taken back while the writing goes on, the
parts all fit exactly if the whole does.  So an instruction is written if the program behind it
is no longer than the limit, and otherwise room runs out, in whichever part that happens.
-/

namespace Quill

/-- A layout has room for a size if its limit, if any, is no smaller. -/
def Layout.HasRoom (layout : Layout) (size : Nat) : Prop :=
  ∀ limit ∈ layout.limit, size ≤ limit

theorem Layout.any_lt_iff (layout : Layout) (size : Nat) :
    layout.limit.any (· < size) = true ↔ ¬ layout.HasRoom size := by
  cases bound : layout.limit with
  | none => simp [HasRoom, bound]
  | some limit => simp [HasRoom, bound]

instance (layout : Layout) (size : Nat) : Decidable (layout.HasRoom size) :=
  decidable_of_iff (¬ layout.limit.any (· < size) = true)
    ((not_congr (layout.any_lt_iff size)).trans not_not)

theorem Layout.hasRoom_of_unlimited {layout : Layout} (unlimited : layout.limit = none)
    (size : Nat) : layout.HasRoom size := by
  intro limit bound
  rw [unlimited] at bound
  cases bound

theorem Layout.HasRoom.mono {layout : Layout} {size smaller : Nat} (room : layout.HasRoom size)
    (le : smaller ≤ size) : layout.HasRoom smaller :=
  fun limit bound => le.trans (room limit bound)

/-- A piece that is not refused for its length. -/
def Piece.Short : Piece → Prop
  | .plain _ => True
  | .wrapping text => text.utf8ByteSize ≤ pieceLimit

instance : (piece : Piece) → Decidable piece.Short
  | .plain _ => inferInstanceAs (Decidable True)
  | .wrapping text => inferInstanceAs (Decidable (text.utf8ByteSize ≤ pieceLimit))

namespace Buffer

variable {layout : Layout} {buffer : Buffer} {text : String} {piece : Piece} {pieces : List Piece}

theorem utf8ByteSize_spaces (count : Nat) : (spaces count).utf8ByteSize = count := by
  have length : ∀ count, String.utf8Len (List.replicate count ' ') = count := by
    intro count
    induction count with
    | zero => rfl
    | succ count ih =>
        rw [List.replicate_succ, String.utf8Len_cons, ih]
        rfl
  rw [spaces, String.utf8ByteSize_ofList, length]

theorem size_extended (buffer : Buffer) (text : String) :
    (buffer.extended text).size =
      buffer.size + ((buffer.indent - buffer.column) + text.utf8ByteSize) := by
  rw [size, extended, String.utf8ByteSize_append, String.utf8ByteSize_append,
    utf8ByteSize_spaces, size, Nat.add_assoc]

theorem Grows.size_le {longer : Buffer} {added : String} (grows : Grows buffer longer added) :
    buffer.size ≤ longer.size := by
  rw [size, size, grows.text, String.utf8ByteSize_append]
  exact Nat.le_add_right _ _

theorem size_le_wroteEach (layout : Layout) (buffer : Buffer) (pieces : List Piece) :
    buffer.size ≤ (pieces.foldl (wrote layout) buffer).size := by
  obtain ⟨added, grows⟩ := wroteEach_grows layout buffer pieces
  exact grows.size_le

theorem append_eq_ok (room : layout.HasRoom (buffer.extended text).size) :
    ∃ count, buffer.append layout text = (buffer.extended text, .ok count) := by
  rw [size_extended] at room
  have free : ¬ layout.limit.any
      (· < buffer.size + ((buffer.indent - buffer.column) + text.utf8ByteSize)) = true := by
    rw [Layout.any_lt_iff]
    exact not_not_intro room
  exact ⟨_, by rw [append, if_neg free, extended]⟩

theorem append_eq_error (full : ¬ layout.HasRoom (buffer.extended text).size) :
    buffer.append layout text = (buffer, .error .outOfMemory) := by
  rw [size_extended] at full
  rw [append, if_pos ((Layout.any_lt_iff _ _).mpr full)]

theorem put_eq_ok (short : piece.Short) (room : layout.HasRoom (buffer.wrote layout piece).size) :
    ∃ count, buffer.put layout piece = (buffer.wrote layout piece, .ok count) := by
  cases piece with
  | plain text => exact append_eq_ok room
  | wrapping text =>
      rw [wrote] at room
      rw [put, appendWrapping, if_neg (Nat.not_lt.mpr short), wrote]
      by_cases breaks : buffer.breaksLine layout text = true
      · rw [if_pos breaks] at room
        have later := (extended_grows (buffer.extended "\n") text).size_le
        have breaking := room.mono later
        obtain ⟨breakCount, broken⟩ := append_eq_ok breaking
        obtain ⟨count, written⟩ := append_eq_ok room
        exact ⟨breakCount + count, by simp only [if_pos breaks, broken, written]⟩
      · rw [if_neg breaks] at room
        obtain ⟨count, written⟩ := append_eq_ok room
        exact ⟨0 + count, by simp only [if_neg breaks, written]⟩

theorem put_eq_error (short : piece.Short)
    (full : ¬ layout.HasRoom (buffer.wrote layout piece).size) :
    (buffer.put layout piece).2 = .error .outOfMemory := by
  cases piece with
  | plain text => rw [put, append_eq_error full]
  | wrapping text =>
      rw [wrote] at full
      rw [put, appendWrapping, if_neg (Nat.not_lt.mpr short)]
      by_cases breaks : buffer.breaksLine layout text = true
      · rw [if_pos breaks] at full
        by_cases broken : layout.HasRoom (buffer.extended "\n").size
        · obtain ⟨breakCount, newline⟩ := append_eq_ok broken
          simp only [if_pos breaks, newline, append_eq_error full]
        · simp only [if_pos breaks, append_eq_error broken]
      · rw [if_neg breaks] at full
        simp only [if_neg breaks, append_eq_error full]

theorem putEach_eq_ok (short : ∀ piece ∈ pieces, piece.Short)
    (room : layout.HasRoom (pieces.foldl (wrote layout) buffer).size) :
    ∃ count, buffer.putEach layout pieces = (pieces.foldl (wrote layout) buffer, .ok count) := by
  induction pieces generalizing buffer with
  | nil => exact ⟨0, rfl⟩
  | cons piece rest ih =>
      obtain ⟨first, others⟩ := List.forall_mem_cons.mp short
      have early := room.mono (size_le_wroteEach layout (buffer.wrote layout piece) rest)
      obtain ⟨count, put⟩ := put_eq_ok first early
      obtain ⟨further, each⟩ := ih others room
      exact ⟨count + further, by simp only [putEach, put, each, List.foldl_cons]⟩

theorem putEach_eq_error (short : ∀ piece ∈ pieces, piece.Short)
    (start : layout.HasRoom buffer.size)
    (full : ¬ layout.HasRoom (pieces.foldl (wrote layout) buffer).size) :
    (buffer.putEach layout pieces).2 = .error .outOfMemory := by
  induction pieces generalizing buffer with
  | nil => exact (full start).elim
  | cons piece rest ih =>
      obtain ⟨first, others⟩ := List.forall_mem_cons.mp short
      by_cases early : layout.HasRoom (buffer.wrote layout piece).size
      · obtain ⟨count, put⟩ := put_eq_ok first early
        have failed := ih others early full
        rw [putEach, put]
        dsimp only
        split
        · rename_i each
          rw [each] at failed
          cases failed
        · rename_i each
          rwa [each] at failed
      · have failed := put_eq_error first early
        rw [putEach]
        split
        · rename_i put
          rw [put] at failed
          cases failed
        · rename_i put
          rwa [put] at failed

/-- An instruction is written if there is room for the whole of it. -/
theorem putAll_eq_ok (short : ∀ piece ∈ pieces, piece.Short)
    (room : layout.HasRoom (pieces.foldl (wrote layout) buffer).size) :
    ∃ count, buffer.putAll layout pieces = (pieces.foldl (wrote layout) buffer, .ok count) := by
  obtain ⟨count, each⟩ := putEach_eq_ok short room
  exact ⟨count, by rw [putAll, each]⟩

/-- Room runs out if there is none for the whole of an instruction. -/
theorem putAll_eq_error (short : ∀ piece ∈ pieces, piece.Short)
    (start : layout.HasRoom buffer.size)
    (full : ¬ layout.HasRoom (pieces.foldl (wrote layout) buffer).size) :
    (buffer.putAll layout pieces).2 = .error .outOfMemory := by
  have failed := putEach_eq_error short start full
  rw [putAll]
  split
  · rename_i each
    rw [each] at failed
    cases failed
  · rename_i each
    rwa [each] at failed

end Buffer

end Quill
