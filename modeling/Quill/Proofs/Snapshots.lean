import Quill.Context.Snapshot
import Quill.Proofs.AttributeCodecs
import Quill.Settings

/-!
# Snapshots that are read back

A context and the settings are records.  A context whose doubles are finite, and settings whose
counts fit machine words, are read back from what is written of them.
-/

namespace Quill

open Json

variable {room : ℕ}

section Contexts

def Context.numbers (context : Context) : List Float :=
  context.strokeWidth :: context.dashOffset :: context.fontSize :: context.kerning ::
    context.interline :: context.interword ::
      (context.dashes ++ (context.transform.coefficients ++ context.bounds.numbers))

theorem codes_name (name : Option String) : Codes room name :=
  codes_option (fun text _ => codes_string text) fun _ equal => nomatch equal

/-- The reader of a context takes its fields one after the other. -/
theorem Context.reads {context : Context}
    (finite : ∀ number ∈ context.numbers, Number.isFinite number) :
    Reads (room + 1) context.fields context.fields reader context := by
  simp only [numbers, List.forall_mem_cons, List.forall_mem_append] at finite
  obtain ⟨width, offset, size, kerning, interline, interword, dashes, map, box⟩ := finite
  exact
    .required (Rgba.codes _) <| .nullable (codes_name _) <| .required (codes_keyword _) <|
    .required (Rgba.codes _) <| .nullable (codes_name _) <|
    .required (codes_double width) <|
    .required (codes_list fun number member => codes_double (dashes number member)) <|
    .required (codes_double offset) <|
    .required (codes_keyword _) <| .required (codes_keyword _) <| .required (codes_word _) <|
    .required (codes_boolean _) <| .required (codes_byte _) <|
    .nullable (codes_name _) <| .nullable (codes_name _) <| .required (codes_double size) <|
    .required (codes_keyword _) <| .required (codes_word _) <| .required (codes_keyword _) <|
    .required (codes_boolean _) <| .required (codes_keyword _) <|
    .required (Rgba.codes _) <| .required (Rgba.codes _) <| .nullable (codes_name _) <|
    .required (codes_keyword _) <| .required (codes_keyword _) <| .required (codes_keyword _) <|
    .required (codes_double kerning) <| .required (codes_double interline) <|
    .required (codes_double interword) <|
    .required (Transform.codes map) <| .nullable (codes_name _) <|
    .required (codes_keyword _) <| .required (codes_keyword _) <|
    .required (Rectangle.codes box) .done

theorem Context.codes {context : Context}
    (finite : ∀ number ∈ context.numbers, Number.isFinite number) : Codes (room + 2) context := by
  refine (Context.reads finite).codes ?_ ?_ rfl fun value => rfl
  · simp [fields]
  · simp [fields]

end Contexts

section Settings

instance : LawfulKeyword GeometryKey where
  find?_name key := by cases key <;> rfl

/-- Settings whose counts fit machine words. -/
structure Settings.Fits (settings : Settings) : Prop where
  wrapColumn : settings.wrapColumn < 2 ^ 64
  base64Width : settings.base64Width < 2 ^ 64
  maxBytes : ∀ bytes ∈ settings.maxBytes, bytes < 2 ^ 64

theorem Settings.codes {settings : Settings} (fits : settings.Fits) :
    Codes (room + 1) settings := by
  refine Reads.codes ?_ (by simp) (by simp) rfl fun value => rfl
  exact .defaulted (codes_count fits.wrapColumn) <| .defaulted (codes_count fits.base64Width) <|
    .defaulted (codes_keyword _) <|
    .defaulted (codes_option (fun bytes member => codes_count (fits.maxBytes bytes member))
      fun _ equal => nomatch equal) .done

end Settings

/-- Contexts whose doubles are finite and settings whose counts fit machine words are read back from
their data, whichever way it is laid out: nothing is rounded, and no field is lost or changed. -/
theorem snapshots_survive_data :
    (∀ context : Context, (∀ number ∈ context.numbers, Number.isFinite number) →
      Survives context) ∧
      ∀ settings : Settings, settings.Fits → Survives settings :=
  ⟨fun _ finite => (Context.codes finite).survives,
    fun _ fits => (Settings.codes fits).survives⟩

/-- The smallest double, a negative zero, a sum that no short decimal spells, names with quotes,
controls and characters beyond the basic plane, and the largest counts. -/
theorem snapshots_survive_data_at_extremes :
    Survives ({
      fill := ⟨⟨1, 2, 3, 4⟩, some "a\"b\\c\n\x01"⟩
      dashes := [5e-324, -0.0, 0.1 + 0.2, 1e23, 1.7976931348623157e308]
      miterLimit := 4294967295
      font := some ""
      encoding := some "𝄞"
      gravity := .fixed
      transform := ⟨0.1, -1e-7, 1e21, 123456789012345680, -2.5, 3⟩
      bounds := ⟨-1, -2, 0.5, 1e300⟩ } : Context) ∧
      Survives ({
        wrapColumn := 18446744073709551615
        geometryKey := .shared
        maxBytes := some 0 } : Settings) := by
  refine ⟨snapshots_survive_data.1 _ (by decide +kernel), snapshots_survive_data.2 _ ?_⟩
  refine ⟨by decide, by decide, fun bytes limit => ?_⟩
  cases limit
  decide

end Quill
