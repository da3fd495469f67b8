import Quill.Proofs.InlinePictures

/-!
# Reading quoted texts back

A caption and the names of fonts and encodings stand between quotes.  A reader that scans such an
instruction from its first quote on, and takes every character behind a backslash as it is, comes
to the end of the line right behind the first quote without a backslash.  What it has scanned is
the text that was given, whatever quotes, backslashes and line breaks are in it.
-/

namespace Quill

/-- What a reader finds behind the first quote of a text: the characters up to the next quote
without a backslash, and those behind it. -/
def Text.Quoted.scan? (characters : List Char) : Option (List Char × List Char) :=
  decode (characters.dropWhile (· != '\'')).tail

/-- The text that an instruction puts between quotes. -/
def Instruction.quoted? : Instruction → Option String
  | .shape (.caption _ _ text) => some text
  | .setting (.label _ text) => some text
  | _ => none

/-- Whether an instruction that puts a text between quotes is written.  A caption always is; a name
must not be blank, and it has to be a new one while settings in force are left out. -/
def Drawing.WritesQuoted (drawing : Drawing) : Instruction → Prop
  | .setting (.label label text) =>
    Text.blank text = false ∧
      (drawing.filtering = true → drawing.context.label label ≠ some text)
  | _ => True

section Scanning

open Text.Quoted

variable {character : Char} {text front : String}

theorem Text.Quoted.isSpecial_iff : isSpecial character = true ↔
    character = '\'' ∨ character = '\\' := by
  simp [isSpecial]

theorem Text.Quoted.decode_plain (plain : isSpecial character = false) (rest : List Char) :
    decode (character :: rest) =
      (decode rest).map fun (text, after) => (character :: text, after) := by
  have apart : ¬ (character = '\'' ∨ character = '\\') := by
    rw [← isSpecial_iff, plain]
    exact Bool.false_ne_true
  rw [not_or] at apart
  rw [decode]
  · exact apart.1
  · intro escaped others backslash
    exact (apart.2 backslash).elim

/-- An encoded text is read up to the quote that closes it. -/
theorem Text.Quoted.decode_encode (characters rest : List Char) :
    decode (encode characters ++ '\'' :: rest) = some (characters, rest) := by
  induction characters with
  | nil => rfl
  | cons character others ih =>
      cases special : isSpecial character with
      | true =>
          have escaped : encode (character :: others) = '\\' :: character :: encode others := by
            rw [encode, if_pos special]
          rw [escaped, List.cons_append, List.cons_append, decode, ih]
          rfl
      | false =>
          have unescaped : encode (character :: others) = character :: encode others := by
            rw [encode, special, if_neg Bool.false_ne_true]
          rw [unescaped, List.cons_append, decode_plain special, ih]
          rfl

/-- A line that ends in a literal behind text without quotes. -/
theorem Text.Quoted.scan?_line (unquoted : Quoteless front) (text : String) :
    scan? (front ++ literal text ++ "\n").toList = some (text.toList, ['\n']) := by
  have line : (front ++ literal text ++ "\n").toList =
      front.toList ++ '\'' :: (encode text.toList ++ '\'' :: ['\n']) := by
    simp [literal, String.toList_append]
  rw [scan?, line, dropWhile_up_to unquoted, List.tail_cons, decode_encode]

end Scanning

section Instructions

variable {tools : Tools} {drawing : Drawing} {instruction : Instruction} {text : String}

theorem Label.quoteless_word (label : Label) : Quoteless label.word := by
  cases label <;> decide

/-- An instruction that is written puts its text at the end of the line, behind text without
quotes. -/
theorem Drawing.WritesQuoted.plan (tools : Tools) (writes : drawing.WritesQuoted instruction)
    (quoted : instruction.quoted? = some text) :
    ∃ front change, Quoteless front ∧
      instruction.plan tools drawing = .line (front ++ Text.Quoted.literal text) change := by
  have space : Quoteless " " := by decide
  cases instruction with
  | shape shape =>
      cases shape with
      | caption x y given =>
          cases quoted
          have word : Quoteless "text " := by decide
          refine ⟨"text " ++ Number.coordinatePair x y ++ " ", .nothing, ?_, rfl⟩
          simp only [quoteless_append, word, quoteless_coordinatePair, space, and_self]
      | _ => cases quoted
  | setting setting =>
      cases setting with
      | label label given =>
          cases quoted
          obtain ⟨inhabited, new⟩ := writes
          have written : (drawing.filtering && !(drawing.context.label label != some text)) =
              false := by
            cases filtering : drawing.filtering with
            | false => rfl
            | true => simpa using new filtering
          refine ⟨label.word ++ " ", .context (·.setLabel label text),
            quoteless_append.mpr ⟨label.quoteless_word, space⟩, ?_⟩
          simp only [Instruction.plan, Setting.plan, require, inhabited, Bool.false_eq_true,
            if_false, Plan.checked, labelPlan, update, written]
      | _ => cases quoted
  | _ => cases quoted

/-- A name that is not written is blank, and refused, or in force, and left out. -/
theorem Drawing.program_of_not_writesQuoted (kept : ¬ drawing.WritesQuoted instruction) :
    (drawing.call tools (.instruct instruction)).1.program = drawing.program := by
  cases instruction with
  | setting setting =>
      cases setting with
      | label label text =>
          rw [Drawing.call, Instruction.plan, Setting.plan, require]
          split
          · rfl
          · rename_i inhabited
            have elided : (drawing.filtering && !(drawing.context.label label != some text)) =
                true := by
              by_contra written
              refine kept ⟨by simpa using inhabited, fun filtering same => written ?_⟩
              simp [filtering, same]
            rw [Plan.checked, labelPlan, update, if_pos elided, Plan.run]
      | _ => exact (kept trivial).elim
  | _ => exact (kept trivial).elim

/-- A text between quotes is read back exactly.  Where nothing limits the program, the instruction
is written as a line of which a reader, scanning from the first quote on, finds the given text and
behind it nothing but the end of the line; an instruction that is not written appends nothing. -/
theorem quoted_texts_read_back (quoted : instruction.quoted? = some text)
    (usable : drawing.poisoned = false) (unlimited : drawing.layout.limit = none) :
    ∃ added, (drawing.call tools (.instruct instruction)).1.program = drawing.program ++ added ∧
      (drawing.WritesQuoted instruction →
        (drawing.call tools (.instruct instruction)).2 = .done ∧
          Text.Quoted.scan? added.toList = some (text.toList, ['\n'])) ∧
      (¬ drawing.WritesQuoted instruction → added = "") := by
  by_cases writes : drawing.WritesQuoted instruction
  · obtain ⟨front, change, unquoted, planned⟩ := writes.plan tools quoted
    have line := quoteless_append.mpr
      ⟨quoteless_spaces (drawing.buffer.indent - drawing.buffer.column), unquoted⟩
    have grows := drawing.buffer.extended_grows (front ++ Text.Quoted.literal text ++ "\n")
    rw [Drawing.call, planned, Plan.run_line unlimited usable]
    refine ⟨_, (change.apply_program _).trans grows.text, fun _ => ⟨rfl, ?_⟩, fun kept => ?_⟩
    · have read := Text.Quoted.scan?_line line text
      simpa only [String.append_assoc] using read
    · exact (kept writes).elim
  · refine ⟨"", ?_, fun written => (writes written).elim, fun _ => rfl⟩
    rw [String.append_empty]
    exact Drawing.program_of_not_writesQuoted writes

/-- A quote behind a backslash, a line break and a backslash at the end, inside a scope. -/
theorem quoted_texts_read_back_in_scope :
    let drawing := (Drawing.start {} ⟨64, 64, .empty⟩).calls {} [.instruct (.bracket .openScope)]
    let font : Instruction := .setting (.label .font "\\'\n\\")
    let after := (drawing.call {} (.instruct font)).1
    after.program = drawing.program ++ " font '\\\\\\'\n\\\\'\n" ∧
      ∃ added, after.program = drawing.program ++ added ∧
        Text.Quoted.scan? added.toList = some (['\\', '\'', '\n', '\\'], ['\n']) := by
  intro drawing font after
  obtain ⟨added, program, read, -⟩ :=
    @quoted_texts_read_back {} drawing font "\\'\n\\" rfl rfl rfl
  have writes : drawing.WritesQuoted font := ⟨by decide, fun _ => by decide⟩
  exact ⟨by decide +kernel, added, program, (read writes).2⟩

end Instructions

end Quill
