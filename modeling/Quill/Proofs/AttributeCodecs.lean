import Quill.Compositing
import Quill.Context.Basic
import Quill.Path
import Quill.Proofs.Codecs

/-!
# Attributes that are read back from their data

Every keyword has a word that no other value of its type has, and the geometry types and colors
are records and lists of numbers.
-/

namespace Quill

open Json

section Keywords

instance : LawfulKeyword FillRule where
  find?_name rule := by cases rule <;> rfl

instance : LawfulKeyword ClipUnits where
  find?_name units := by cases units <;> rfl

instance : LawfulKeyword LineCap where
  find?_name cap := by cases cap <;> rfl

instance : LawfulKeyword LineJoin where
  find?_name join := by cases join <;> rfl

instance : LawfulKeyword FontStyle where
  find?_name style := by cases style <;> rfl

instance : LawfulKeyword FontStretch where
  find?_name stretch := by cases stretch <;> rfl

instance : LawfulKeyword Decoration where
  find?_name decoration := by cases decoration <;> rfl

instance : LawfulKeyword Gravity where
  find?_name gravity := by cases gravity <;> rfl

instance : LawfulKeyword Alignment where
  find?_name alignment := by cases alignment <;> rfl

instance : LawfulKeyword Direction where
  find?_name direction := by cases direction <;> rfl

instance : LawfulKeyword Path.Mode where
  find?_name mode := by cases mode <;> rfl

instance : LawfulKeyword Repaint where
  find?_name method := by cases method <;> rfl

instance : LawfulKeyword Compositing where
  find?_name operator := by cases operator <;> rfl

end Keywords

variable {room : ℕ}

theorem Rgba.codes (color : Rgba) : Codes (room + 1) color := by
  refine Reads.codes ?_ (by simp) (by simp) rfl fun value => rfl
  exact .required (codes_byte _) <| .required (codes_byte _) <| .required (codes_byte _) <|
    .required (codes_byte _) .done

def Rectangle.numbers (rectangle : Rectangle) : List Float :=
  [rectangle.x0, rectangle.y0, rectangle.x1, rectangle.y1]

theorem Rectangle.codes {rectangle : Rectangle}
    (finite : ∀ number ∈ rectangle.numbers, Number.isFinite number) :
    Codes (room + 1) rectangle := by
  simp only [numbers, List.forall_mem_cons] at finite
  obtain ⟨x0, y0, x1, y1, -⟩ := finite
  refine Reads.codes ?_ (by simp) (by simp) rfl fun value => rfl
  exact .required (codes_double x0) <| .required (codes_double y0) <|
    .required (codes_double x1) <| .required (codes_double y1) .done

theorem Transform.codes {map : Transform}
    (finite : ∀ number ∈ map.coefficients, Number.isFinite number) : Codes (room + 1) map := by
  have codes : Codes (room + 1) map.coefficients :=
    codes_list fun number member => codes_double (finite number member)
  refine ⟨codes.readable, ?_, fun _ _ equal => nomatch equal⟩
  unfold decode instCodecTransform
  dsimp only
  rw [codes.decodes]
  rfl

end Quill
