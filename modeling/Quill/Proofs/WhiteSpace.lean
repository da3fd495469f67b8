import Quill.Proofs.Growing
import Quill.Proofs.NumberText
import Quill.Text.Blank

/-!
# White space before words

What a drawing writes stands behind indentation, line breaks and the spaces between words, and
whoever reads a program leaves them out, be it path data or the lines of instructions.  A text that
is solid is where leaving out stops.
-/

namespace Quill

namespace Lexing

/-- The white space that programs and path data know, which is that of ASCII but for one tab. -/
def isSpace (character : Char) : Bool :=
  [' ', '\t', '\n', '\x0c', '\r'].contains character

def skip (text : List Char) : List Char :=
  text.dropWhile isSpace

end Lexing

open Lexing

/-- Characters that are all spaces and newlines. -/
def IsSpacing (characters : List Char) : Prop :=
  ∀ character ∈ characters, character = ' ' ∨ character = '\n'

/-- A text that starts with something else than white space. -/
def Solid (text : List Char) : Prop :=
  text.head?.any (!isSpace ·)

instance (text : List Char) : Decidable (Solid text) :=
  inferInstanceAs (Decidable (_ = true))

section Spacing

variable {gap first second : List Char}

theorem isSpacing_spaces (count : Nat) : IsSpacing (spaces count).toList := by
  intro character member
  rw [spaces, String.toList_ofList] at member
  exact .inl (List.eq_of_mem_replicate member)

theorem IsSpacing.append (spacing : IsSpacing first) (others : IsSpacing second) :
    IsSpacing (first ++ second) := by
  intro character member
  rcases List.mem_append.mp member with before | behind
  · exact spacing character before
  · exact others character behind

theorem IsSpacing.isBlank (spacing : IsSpacing gap) :
    ∀ character ∈ gap, Text.isBlank character := by
  intro character member
  rcases spacing character member with rfl | rfl <;> decide

/-- A wrapping write puts only spaces and newlines before its text. -/
theorem Buffer.wrote_wrapping_grows (layout : Layout) (buffer : Buffer) (text : String) :
    ∃ gap, Grows buffer (buffer.wrote layout (.wrapping text)) (gap ++ text) ∧
      IsSpacing gap.toList := by
  have newline : IsSpacing "\n".toList := List.forall_mem_singleton.mpr (.inr rfl)
  rw [wrote]
  split
  · have broken := (extended_grows buffer "\n").trans (extended_grows _ text)
    rw [← String.append_assoc] at broken
    refine ⟨_, broken, ?_⟩
    rw [String.toList_append, String.toList_append]
    exact ((isSpacing_spaces _).append newline).append (isSpacing_spaces _)
  · exact ⟨_, extended_grows buffer text, isSpacing_spaces _⟩

end Spacing

section Skipping

variable {text : List Char} {first : Char}

theorem Solid.append (solid : Solid text) (more : List Char) : Solid (text ++ more) := by
  cases text with
  | nil => cases solid
  | cons first rest => exact solid

theorem solid_cons (visible : isSpace first = false) (rest : List Char) :
    Solid (first :: rest) := by
  simpa [Solid] using visible

theorem Solid.skip (solid : Solid text) : skip text = text := by
  cases text with
  | nil => cases solid
  | cons first rest =>
      have visible : ¬ isSpace first = true := by simpa [Solid] using solid
      exact List.dropWhile_cons_of_neg visible

namespace Lexing

theorem length_skip_le (text : List Char) : (skip text).length ≤ text.length :=
  (List.dropWhile_sublist _).length_le

theorem skip_spacing {gap : List Char} (spacing : IsSpacing gap) (text : List Char) :
    skip (gap ++ text) = skip text := by
  refine List.dropWhile_append_of_pos fun character member => ?_
  rcases spacing character member with rfl | rfl <;> rfl

theorem skip_skip (text : List Char) : skip (skip text) = skip text := by
  induction text with
  | nil => rfl
  | cons first rest ih =>
      by_cases space : isSpace first = true
      · have skipped : skip (first :: rest) = skip rest := List.dropWhile_cons_of_pos space
        rw [skipped, ih]
      · have kept : skip (first :: rest) = first :: rest := List.dropWhile_cons_of_neg space
        rw [kept, kept]

end Lexing

/-- A text is solid if its first character has a property that no white space has. -/
theorem solid_of_visible (visible : Char → Bool)
    (apart : [' ', '\t', '\n', '\x0c', '\r'].any visible = false)
    (shows : visible first = true) (rest : List Char) : Solid (first :: rest) := by
  refine solid_cons ?_ rest
  by_contra space
  rw [Bool.not_eq_false, isSpace, List.contains_iff_mem] at space
  exact List.any_eq_false.mp apart first space shows

theorem solid_of_isLeading (leads : Number.isLeading first) (rest : List Char) :
    Solid (first :: rest) :=
  solid_of_visible Number.isLeading rfl leads rest

end Skipping

end Quill
