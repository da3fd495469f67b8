import Quill.Proofs.CommandForms
import Quill.Script.Replay

/-!
# Scripts that are read back

A command is written with its name in front of its arguments.  Reading it back finds that name
again, because no argument is called `op`, and then the reader of that command, because no kind of
command has a name of another kind.
-/

namespace Quill.Command

open Json

variable {room : ℕ}

section Names

theorem settingReader?_motionForm (move : Motion) :
    settingReader? (motionForm move).name = none := by
  cases move <;> rfl

theorem readers_shapeForm (figure : Shape) :
    settingReader? (shapeForm figure).name = none ∧
      motionReader? (shapeForm figure).name = none := by
  cases figure <;> exact ⟨rfl, rfl⟩

theorem readers_segmentForm (command : Path.Segment) :
    settingReader? (segmentForm command).name = none ∧
      motionReader? (segmentForm command).name = none ∧
      shapeReader? (segmentForm command).name = none := by
  cases command <;> exact ⟨rfl, rfl, rfl⟩

theorem readers_bracketForm (edge : Bracket) :
    settingReader? (bracketForm edge).name = none ∧
      motionReader? (bracketForm edge).name = none ∧
      shapeReader? (bracketForm edge).name = none ∧
      segmentReader? (bracketForm edge).name = none := by
  cases edge <;> exact ⟨rfl, rfl, rfl, rfl⟩

/-- The name of a command and those of its arguments are all different. -/
theorem distinct_names (command : Command) :
    ("op" :: command.form.fields.map Prod.fst).Nodup := by
  rcases command with ((change | move | figure | step | edge | text) | ⟨placement, source⟩)
  · change ("op" :: (settingForm change).fields.map Prod.fst).Nodup
    unfold settingForm
    split <;> simp
  · cases move <;> simp [form, motionForm]
  · cases figure <;> simp [form, shapeForm]
  · rcases step with _ | _ | _ | ⟨mode, command⟩
    · simp [form, pathForm]
    · simp [form, pathForm]
    · simp [form, pathForm]
    · cases command <;> simp [form, pathForm, segmentForm]
  · cases edge <;> simp [form, bracketForm]
  · simp [form]
  · simp [form]

end Names

/-- A command whose numbers can be written: the doubles are finite and the integers fit. -/
structure Writable (command : Command) : Prop where
  finite : ∀ number ∈ command.numbers, Number.isFinite number
  fit : ∀ number ∈ command.integers, -2 ^ 63 ≤ number ∧ number < 2 ^ 63

/-- The name of a command is unknown to all readers before its own, which takes the command's
arguments. -/
theorem form_gives {command : Command} (writable : command.Writable) :
    command.form.Gives reader? (room + 2) command := by
  obtain ⟨finite, fit⟩ := writable
  rcases command with ((change | move | figure | step | edge | text) | ⟨placement, source⟩)
  · have gives : (settingForm change).Gives settingReader? (room + 2) change :=
      settingForm_gives finite
    obtain ⟨reader, found, reads⟩ := gives
    refine ⟨setting <$> reader, ?_, fun all => (reads all).map setting⟩
    simp only [reader?, form, found]
    rfl
  · obtain ⟨reader, found, reads⟩ := motionForm_gives finite
    refine ⟨motion <$> reader, ?_, fun all => (reads all).map motion⟩
    simp only [reader?, form, found, settingReader?_motionForm]
    rfl
  · obtain ⟨reader, found, reads⟩ := shapeForm_gives finite fit
    obtain ⟨noSetting, noMotion⟩ := readers_shapeForm figure
    refine ⟨shape <$> reader, ?_, fun all => (reads all).map shape⟩
    simp only [reader?, form, found, noSetting, noMotion]
    rfl
  · rcases step with _ | _ | _ | ⟨mode, command⟩
    · exact ⟨_, rfl, fun _ => .done⟩
    · exact ⟨_, rfl, fun _ => .done⟩
    · exact ⟨_, rfl, fun _ => .done⟩
    · obtain ⟨reader, found, reads⟩ := segmentForm_gives finite
      obtain ⟨noSetting, noMotion, noShape⟩ := readers_segmentForm command
      refine ⟨do return segment (← takeMode) (← reader), ?_, fun all => ?_⟩
      · simp only [reader?, form, pathForm, found, noSetting, noMotion, noShape]
        rfl
      · exact .defaulted (codes_keyword mode) ((reads all).map (segment mode))
  · obtain ⟨reader, found, reads⟩ := bracketForm_gives finite
    obtain ⟨noSetting, noMotion, noShape, noSegment⟩ := readers_bracketForm edge
    refine ⟨bracket <$> reader, ?_, fun all => (reads all).map bracket⟩
    simp only [reader?, form, found, noSetting, noMotion, noShape, noSegment]
    rfl
  · exact ⟨_, rfl, fun _ => .required (codes_string text) .done⟩
  · simp only [numbers, List.forall_mem_cons] at finite
    obtain ⟨x, y, width, height, -⟩ := finite
    exact ⟨_, rfl, fun _ => .required (codes_keyword _) <| .required (codes_double x) <|
      .required (codes_double y) <| .required (codes_double width) <|
      .required (codes_double height) <| .required (codes_string source) .done⟩

section Reading

theorem sound_of_readable {value : Value} (readable : Readable room value) : value.sound := by
  induction readable with
  | null | boolean | integer | real | string => rfl
  | @array room items inside each =>
      change Value.soundItems items
      clear inside
      induction items with
      | nil => rfl
      | cons first rest ih =>
          obtain ⟨here, later⟩ := List.forall_mem_cons.mp each
          rw [Value.soundItems, here, ih later]
          rfl
  | @object room fields inside each =>
      change Value.soundFields fields
      clear inside
      induction fields with
      | nil => rfl
      | cons first rest ih =>
          obtain ⟨here, later⟩ := List.forall_mem_cons.mp each
          rw [Value.soundFields, here, ih later]
          rfl

theorem argument_eq {value : Value}
    (plain : ∀ word inner, value ≠ .object [(word, .object inner)]) : argument value = value := by
  unfold argument
  split
  · exact absurd rfl (plain _ _)
  · rfl

/-- No argument is taken for the name, and each is taken as it was written. -/
theorem arguments_eq {fields : List (String × Value)} {name : Value}
    (distinct : ("op" :: fields.map Prod.fst).Nodup)
    (plain : ∀ field ∈ fields, ∀ word inner, field.2 ≠ .object [(word, .object inner)]) :
    ((("op", name) :: fields).filter (·.1 != "op")).map
      (fun field => (field.1, argument field.2)) = fields := by
  have others : ∀ field ∈ fields, (field.1 != "op") = true := by
    intro field member
    refine bne_iff_ne.mpr fun same => ?_
    exact (List.nodup_cons.mp distinct).1 (same ▸ List.mem_map_of_mem member)
  rw [List.filter_cons_of_neg (by simp), List.filter_eq_self.mpr others]
  refine (List.map_congr_left fun field member => ?_).trans (List.map_id fields)
  rw [argument_eq (plain field member)]
  rfl

/-- A command survives being written. -/
theorem codes {command : Command} (writable : command.Writable) : Codes (room + 3) command := by
  have gives : command.form.Gives reader? (room + 2) command := form_gives writable
  obtain ⟨reader, found, takes⟩ := gives
  have reads := takes command.form.fields
  have distinct := distinct_names command
  have named : (("op", Value.string command.form.name) :: command.form.fields).filter
      (·.1 == "op") = [("op", .string command.form.name)] :=
    filter_name distinct List.mem_cons_self
  have readable : ∀ field ∈ ("op", Value.string command.form.name) :: command.form.fields,
      Readable (room + 2) field.2 :=
    List.forall_mem_cons.mpr ⟨.string _, reads.readable⟩
  have sound : Value.soundFields (("op", .string command.form.name) :: command.form.fields) :=
    sound_of_readable (.object readable)
  refine ⟨.object readable, ?_, fun _ _ equal => nomatch equal⟩
  change ofValue? (.object (("op", .string command.form.name) :: command.form.fields)) = _
  rw [ofValue?]
  simp only [named]
  rw [if_pos sound, found, Option.bind_some]
  refine (congrArg (fun fields => FieldReader.run? reader (.named fields))
    (arguments_eq distinct reads.plain)).trans ?_
  exact reads.run? (List.nodup_cons.mp distinct).2

end Reading

end Quill.Command

namespace Quill

open Json Command

/-- A script is read back from its data, whichever way it is laid out: every command comes back
with its strings, its integers and the very doubles it had. -/
theorem scripts_survive_data {commands : List Command}
    (writable : ∀ command ∈ commands, command.Writable) :
    parseScript (encode commands).text.toUTF8 = .ok commands ∧
      parseScript (encode commands).spreadText.toUTF8 = .ok commands := by
  have codes : Codes depthLimit commands :=
    codes_list fun command member => Command.codes (writable command member)
  obtain ⟨written, spread⟩ := codes.survives
  rw [parseScript, written, parseScript, spread]
  exact ⟨rfl, rfl⟩

theorem scripts_survive_data_at_extremes :
    let commands : List Command :=
      [bracket (.openPattern "a\"b\\c" (-0.0) 5e-324 1e23 1.7976931348623157e308),
        .instruct (.comment "\x00\x1f\n𝄞"), setting (.dashes [0.1 + 0.2, -1e-7]),
        setting (.paint .stroke ⟨0, 1, 254, 255⟩), motion (.affine ⟨0.1, 1, -2.5, 1e21, 0, 3⟩),
        shape (.polyline [(0, 1), (2.5, 3)]), shape (.polygon []),
        shape (.viewbox (-9223372036854775808) 0 1 9223372036854775807),
        segment .unset (.arc 1 2 0.1 true false 3 4), .composite ⟨.nothing, 0, 0, 1, 1⟩ ""]
    parseScript (encode commands).text.toUTF8 = .ok commands ∧
      parseScript (encode commands).spreadText.toUTF8 = .ok commands := by
  intro commands
  have numbers : ∀ command ∈ commands,
      (∀ number ∈ command.numbers, Number.isFinite number) ∧
        ∀ number ∈ command.integers, -2 ^ 63 ≤ number ∧ number < 2 ^ 63 := by
    decide +kernel
  exact scripts_survive_data fun command member =>
    ⟨(numbers command member).1, (numbers command member).2⟩

end Quill
