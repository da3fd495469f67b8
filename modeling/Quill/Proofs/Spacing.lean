import Quill.Drawing.Call
import Quill.Proofs.Growing

/-!
# Text without its spacing

Indenting, wrapping and cutting into lines put in spaces and newlines, and nothing else.  So
without them a written piece is the piece, wherever it was written and whatever the layout.
-/

namespace Quill

/-- A text without its spaces and newlines. -/
def unspaced (text : String) : String :=
  String.ofList (text.toList.filter fun character => character != ' ' && character != '\n')

@[simp] theorem unspaced_append (first second : String) :
    unspaced (first ++ second) = unspaced first ++ unspaced second := by
  simp [unspaced, String.ofList_append]

@[simp] theorem unspaced_empty : unspaced "" = "" := rfl

@[simp] theorem unspaced_newline : unspaced "\n" = "" := rfl

@[simp] theorem unspaced_spaces (count : Nat) : unspaced (spaces count) = "" := by
  have none : (List.replicate count ' ').filter
      (fun character => character != ' ' && character != '\n') = [] := by
    rw [List.filter_eq_nil_iff]
    intro character member
    simp [List.eq_of_mem_replicate member]
  rw [unspaced, spaces, String.toList_ofList, none, String.ofList_nil]

def Piece.joined : List Piece → String
  | [] => ""
  | .plain text :: rest => text ++ joined rest
  | .wrapping text :: rest => text ++ joined rest

namespace Buffer

theorem wrote_unspaced (layout : Layout) (buffer : Buffer) (piece : Piece) (rest : List Piece) :
    ∃ added, Grows buffer (buffer.wrote layout piece) added ∧
      unspaced (Piece.joined (piece :: rest)) = unspaced added ++ unspaced (Piece.joined rest) := by
  cases piece with
  | plain text =>
      refine ⟨_, buffer.extended_grows text, ?_⟩
      simp [Piece.joined]
  | wrapping text =>
      rw [wrote]
      split
      · refine ⟨_, (buffer.extended_grows "\n").trans (extended_grows _ text), ?_⟩
        simp [Piece.joined]
      · refine ⟨_, buffer.extended_grows text, ?_⟩
        simp [Piece.joined]

theorem wroteEach_unspaced (layout : Layout) (buffer : Buffer) (pieces : List Piece) :
    ∃ added, Grows buffer (pieces.foldl (wrote layout) buffer) added ∧
      unspaced added = unspaced (Piece.joined pieces) := by
  induction pieces generalizing buffer with
  | nil => exact ⟨"", .refl buffer, rfl⟩
  | cons piece rest ih =>
      obtain ⟨first, begins, joined⟩ := buffer.wrote_unspaced layout piece rest
      obtain ⟨others, goesOn, same⟩ := ih (buffer.wrote layout piece)
      refine ⟨first ++ others, begins.trans goesOn, ?_⟩
      rw [unspaced_append, same, joined]

end Buffer

section Pictures

theorem Text.Base64.flatten_runs {α : Type} (width : Nat) (items : List α) :
    (runs width items).flatten = items := by
  induction items using runs.induct width with
  | case1 => simp [runs]
  | case2 first rest ih => rw [runs, List.flatten_cons, ih, List.cons_append, List.take_append_drop]

theorem unspaced_intercalate (lines : List (List Char)) :
    unspaced ("\n".intercalate (lines.map String.ofList)) =
      unspaced (String.ofList lines.flatten) := by
  induction lines with
  | nil => rfl
  | cons first rest ih =>
      cases rest with
      | nil => simp
      | cons second rest =>
          rw [List.map_cons, List.map_cons, String.intercalate_cons_cons, ← List.map_cons,
            unspaced_append, unspaced_append, ih, List.flatten_cons, String.ofList_append]
          simp

/-- Without its spacing, a picture is the same text for every width of its lines. -/
theorem Placement.unspaced_text (placement : Placement) (width other : Nat)
    (encoded : EncodedPicture) :
    unspaced (placement.text width encoded) = unspaced (placement.text other encoded) := by
  have flat : ∀ width, unspaced ("\n".intercalate (Text.Base64.lines encoded.bytes width)) =
      unspaced (String.ofList (Text.Base64.encode encoded.bytes)) := by
    intro width
    rw [Text.Base64.lines, unspaced_intercalate, Text.Base64.flatten_runs]
  unfold text
  simp only [unspaced_append, flat]

end Pictures

end Quill
