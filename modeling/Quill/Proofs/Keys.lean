import Mathlib.Data.String.Basic
import Quill.Pattern

/-!
# Keys of artifacts

Putting a value under a key of a table replaces what was there and leaves all other keys alone.
A pattern publishes its text and its bounds under keys made from its name; the two kinds of keys
have no key in common, and different names have different keys of either kind.
-/

namespace Quill

namespace Text

theorem lookup_cons_eq_ite {α : Type} (key other : String) (value : α)
    (rest : List (String × α)) :
    List.lookup other ((key, value) :: rest) =
      if other = key then some value else rest.lookup other := by
  by_cases equal : other = key
  · subst equal
    rw [List.lookup_cons_self, if_pos rfl]
  · rw [List.lookup_cons, beq_false_of_ne equal, if_neg equal]

theorem lookup_insertSorted {α : Type} (key other : String) (value : α)
    (entries : List (String × α)) :
    (insertSorted key value entries).lookup other =
      if other = key then some value else entries.lookup other := by
  induction entries with
  | nil => exact lookup_cons_eq_ite key other value []
  | cons entry rest ih =>
      rcases entry with ⟨held, kept⟩
      simp only [insertSorted]
      split
      · rw [lookup_cons_eq_ite]
      split
      · rename_i equal
        subst equal
        simp only [lookup_cons_eq_ite]
        split <;> rfl
      · rename_i different
        simp only [lookup_cons_eq_ite, ih]
        by_cases here : other = held
        · subst here
          rw [if_pos rfl, if_neg (Ne.symm different), if_pos rfl]
        · rw [if_neg here, if_neg here]

theorem Table.get?_insert {α : Type} (table : Table α) (key other : String) (value : α) :
    (table.insert key value).get? other = if other = key then some value else table.get? other :=
  lookup_insertSorted key other value table.entries

theorem Table.mem_keys {α : Type} {table : Table α} {key : String} :
    key ∈ table.keys ↔ table.contains key = true := by
  rcases table with ⟨entries⟩
  simp only [keys, contains, get?]
  induction entries with
  | nil => simp
  | cons entry rest ih =>
      rcases entry with ⟨held, kept⟩
      rw [List.map_cons, List.mem_cons, ih, lookup_cons_eq_ite]
      split <;> simp_all

theorem Table.contains_insert {α : Type} (table : Table α) (key other : String) (value : α) :
    (table.insert key value).contains other = (decide (other = key) || table.contains other) := by
  rw [contains, contains, get?_insert]
  split <;> simp_all

end Text

theorem Canvas.artifact?_setArtifact (canvas : Canvas) (key other text : String) :
    (canvas.setArtifact key text).artifact? other =
      if other = key then some text else canvas.artifact? other :=
  Text.Table.get?_insert canvas.artifacts key other text

theorem patternKey_injective : Function.Injective patternKey := by
  intro first second equal
  rwa [patternKey, patternKey, String.append_left_inj, String.append_right_inj] at equal

theorem geometryKey_injective : Function.Injective geometryKey := by
  intro first second equal
  rwa [geometryKey, geometryKey, String.append_left_inj, String.append_right_inj] at equal

/-- The key of a text ends in a bracket, and that of bounds in a letter. -/
theorem patternKey_ne_geometryKey (first second : String) :
    patternKey first ≠ geometryKey second := by
  intro equal
  have reversed := congrArg (fun key => key.toList.reverse) equal
  simp [patternKey, geometryKey] at reversed

end Quill
