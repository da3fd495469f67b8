import Quill.Proofs.DataLayout

/-!
# Data that is written and read back

A word ends only at the character behind it, so behind a value the machine may still hold its last
word; every text that can follow finds it in the state in which the word has been taken.  From
there the induction is over the layout: whatever it is, reading it supplies the value to the
container around it.
-/

namespace Quill.Json

namespace Machine

def run (machine : Machine) (text : List Char) : Option Machine :=
  text.foldlM step machine

/-- A machine that goes on like one between literals, but may still have to end a word. -/
inductive Settles (next : Machine) : Machine → Prop
  | same (idle : next.lexeme = .idle) : Settles next next
  | word {machine : Machine} {characters : List Char} (idle : next.lexeme = .idle)
      (held : machine.lexeme = .word characters) (ended : machine.endWord characters = some next) :
      Settles next machine

variable {machine next : Machine} {text : List Char} {character : Char}

theorem run_append (machine : Machine) (text more : List Char) :
    machine.run (text ++ more) = (machine.run text).bind (·.run more) :=
  List.foldlM_append

theorem run_of_step (stepped : machine.step character = some next) (text : List Char) :
    machine.run (character :: text) = next.run text := by
  rw [run, List.foldlM_cons, stepped]
  rfl

/-- White space between literals changes nothing. -/
theorem run_spaces (idle : machine.lexeme = .idle) (spaces : Gap text) :
    machine.run text = some machine := by
  induction text with
  | nil => rfl
  | cons first rest ih =>
      obtain ⟨space, others⟩ := List.forall_mem_cons.mp spaces
      have stepped : machine.step first = some machine := by
        rw [step, idle]
        exact if_pos space
      rw [run_of_step stepped, ih others]

theorem Settles.idle (settles : next.Settles machine) : next.lexeme = .idle := by
  cases settles with
  | same idle => exact idle
  | word idle => exact idle

theorem Settles.step (settles : next.Settles machine) (outside : inWord character = false) :
    machine.step character = next.step character := by
  cases settles with
  | same idle => rfl
  | word idle held ended =>
      rw [Machine.step, held]
      dsimp only
      rw [outside, if_neg Bool.false_ne_true, ended, Option.bind_some, Machine.step, idle]

theorem Settles.run (settles : next.Settles machine) (outside : inWord character = false)
    (text : List Char) : machine.run (character :: text) = next.run (character :: text) := by
  rw [Machine.run, List.foldlM_cons, settles.step outside]
  rfl

theorem Settles.finish (settles : next.Settles machine) : machine.finish = next.finish := by
  cases settles with
  | same idle => rfl
  | word idle held ended => simp only [Machine.finish, held, ended, idle]

section Words

variable {word : List Char} {value : Value}

theorem inWord_of_isSpace (space : isSpace character) : inWord character = false := by
  simp only [isSpace, Bool.or_eq_true, beq_iff_eq] at space
  rcases space with ((rfl | rfl) | rfl) | rfl <;> rfl

theorem between_of_inWord (inside : inWord character) (idle : machine.lexeme = .idle)
    (place : machine.place = .value ∨ machine.place = .valueOrEnd) :
    machine.step character = some { machine with lexeme := .word [character] } := by
  have started : machine.startWord character =
      some { machine with lexeme := .word [character] } := by
    rw [startWord]
    rcases place with expected | expected <;> rw [expected] <;> exact if_pos inside
  have solid : ¬ isSpace character = true := by
    intro space
    rw [inWord_of_isSpace space] at inside
    cases inside
  rw [step, idle]
  dsimp only
  unfold between
  rw [if_neg solid]
  split
  all_goals first
    | cases inside
    | exact started

theorem run_inWord {held : List Char} (lexeme : machine.lexeme = .word held)
    (inside : ∀ character ∈ word, inWord character) :
    machine.run word = some { machine with lexeme := .word (word.reverse ++ held) } := by
  induction word generalizing machine held with
  | nil =>
      rcases machine with ⟨frames, place, lexeme'⟩
      cases lexeme
      rfl
  | cons first rest ih =>
      obtain ⟨here, later⟩ := List.forall_mem_cons.mp inside
      have stepped : machine.step first =
          some { machine with lexeme := .word (first :: held) } := by
        rw [step, lexeme]
        exact if_pos here
      rw [run_of_step stepped, ih rfl later, List.reverse_cons, List.append_assoc]
      rfl

theorem supply_idle (supplied : machine.supply value = some next) : next.lexeme = .idle := by
  rw [supply] at supplied
  split at supplied
  · split at supplied <;> cases supplied <;> rfl
  · split at supplied <;> cases supplied <;> rfl
  · cases supplied

/-- A word is held until something follows that ends it. -/
theorem run_word (spells : Spells word value) (idle : machine.lexeme = .idle)
    (place : machine.place = .value ∨ machine.place = .valueOrEnd)
    (supplied : machine.supply value = some next) :
    ∃ last, machine.run word = some last ∧ next.Settles last := by
  obtain ⟨spelled, inside⟩ := spells
  cases word with
  | nil =>
      have none : wordValue? [] = none := rfl
      rw [none] at spelled
      cases spelled
  | cons first rest =>
      obtain ⟨here, later⟩ := List.forall_mem_cons.mp inside
      refine ⟨{ machine with lexeme := .word (rest.reverse ++ [first]) }, ?_, ?_⟩
      · rw [run_of_step (between_of_inWord here idle place), run_inWord rfl later]
      · refine .word (supply_idle supplied) rfl ?_
        rw [endWord, List.reverse_append, List.reverse_reverse]
        exact (congrArg (Option.bind · _) spelled).trans supplied

end Words

section Texts

/-- The part of a string literal that a character is written as. -/
def partOf (character : Char) : TextPart :=
  if character.toNat < 0x20 ∧ character ∉ ['\x08', '\x0c', '\n', '\r', '\t'] then
    .unit character.toNat
  else .plain character

theorem hexValue?_lowerHexDigit {digit : ℕ} (small : digit < 16) :
    Number.hexValue? (Number.lowerHexDigit digit) = some digit := by
  have all : ∀ digit < 16, Number.hexValue? (Number.lowerHexDigit digit) = some digit := by decide
  exact all digit small

/-- A control character without a letter of its own is read from the digits of its unit. -/
theorem run_unit {code : ℕ} (small : code < 0x100) (frames : List Frame) (place : Place)
    (parts : List TextPart) :
    run ⟨frames, place, .text parts⟩ ['\\', 'u', '0', '0', Number.lowerHexDigit (code / 16),
      Number.lowerHexDigit (code % 16)] = some ⟨frames, place, .text (.unit code :: parts)⟩ := by
  have high : Number.hexValue? (Number.lowerHexDigit (code / 16)) = some (code / 16) :=
    hexValue?_lowerHexDigit (by omega)
  have low : Number.hexValue? (Number.lowerHexDigit (code % 16)) = some (code % 16) :=
    hexValue?_lowerHexDigit (by omega)
  have value : ((0 * 16 + 0) * 16 + code / 16) * 16 + code % 16 = code := by omega
  have started : run ⟨frames, place, .text parts⟩ ['\\', 'u', '0', '0'] =
      some ⟨frames, place, .unit parts [0, 0]⟩ := rfl
  have third : step ⟨frames, place, .unit parts [0, 0]⟩ (Number.lowerHexDigit (code / 16)) =
      some ⟨frames, place, .unit parts [code / 16, 0, 0]⟩ := by
    rw [step, high]
    rfl
  have fourth : step ⟨frames, place, .unit parts [code / 16, 0, 0]⟩
      (Number.lowerHexDigit (code % 16)) = some ⟨frames, place, .text (.unit code :: parts)⟩ := by
    rw [step]
    dsimp only
    rw [low, Option.map_some, value]
  change run _ (['\\', 'u', '0', '0'] ++ [Number.lowerHexDigit (code / 16),
    Number.lowerHexDigit (code % 16)]) = _
  rw [run_append, started, Option.bind_some, run_of_step third, run_of_step fourth]
  rfl

/-- A character of a string is read as one part of the literal. -/
theorem run_escapeCharacter {parts : List TextPart} (lexeme : machine.lexeme = .text parts)
    (character : Char) :
    machine.run (escapeCharacter character) =
      some { machine with lexeme := .text (partOf character :: parts) } := by
  rcases machine with ⟨frames, place, lexeme'⟩
  cases lexeme
  by_cases named : character ∈ ['"', '\\', '\x08', '\x0c', '\n', '\r', '\t']
  · simp only [List.mem_cons, List.not_mem_nil, or_false] at named
    rcases named with rfl | rfl | rfl | rfl | rfl | rfl | rfl <;> rfl
  · simp only [List.mem_cons, List.not_mem_nil, or_false, not_or] at named
    obtain ⟨quote, backslash, back, form, line, carriage, tab⟩ := named
    rw [escapeCharacter, if_neg quote, if_neg backslash, if_neg back, if_neg form, if_neg line,
      if_neg carriage, if_neg tab]
    by_cases control : character.toNat < 0x20
    · have part : partOf character = .unit character.toNat := by
        simp [partOf, control, back, form, line, carriage, tab]
      rw [if_pos control, part]
      exact run_unit (by omega) frames place parts
    · have part : partOf character = .plain character := if_neg fun both => control both.1
      have stepped : step ⟨frames, place, .text parts⟩ character =
          some ⟨frames, place, .text (.plain character :: parts)⟩ := by
        rw [step]
        dsimp only
        rw [if_neg quote, if_neg backslash, if_neg control]
      rw [if_neg control, part, run_of_step stepped]
      rfl

/-- The characters of a string are read one part after the other. -/
theorem run_escaped {parts : List TextPart} (lexeme : machine.lexeme = .text parts)
    (characters : List Char) :
    machine.run (characters.flatMap escapeCharacter) =
      some { machine with lexeme := .text ((characters.map partOf).reverse ++ parts) } := by
  induction characters generalizing machine parts with
  | nil =>
      rcases machine with ⟨frames, place, lexeme'⟩
      cases lexeme
      rfl
  | cons first rest ih =>
      rw [List.flatMap_cons, run_append, run_escapeCharacter lexeme, Option.bind_some, ih rfl,
        List.map_cons, List.reverse_cons, List.append_assoc]
      rfl

/-- A unit below the surrogates stands for a character by itself. -/
theorem joinParts_unit {code : ℕ} (low : code < 0xD800) (rest : List TextPart) :
    joinParts (.unit code :: rest) = (joinParts rest).map (Char.ofNat code :: ·) := by
  have unpaired : ¬ (0xD800 ≤ code ∧ code < 0xE000) := fun both => absurd both.1 (by omega)
  rcases rest with _ | ⟨part, others⟩
  · exact if_neg unpaired
  · cases part with
    | plain character => exact if_neg unpaired
    | malformed => exact if_neg unpaired
    | unit second =>
        have single : ¬ (0xD800 ≤ code ∧ code < 0xDC00 ∧ 0xDC00 ≤ second ∧ second < 0xE000) :=
          fun pair => absurd pair.1 (by omega)
        exact (if_neg single).trans (if_neg unpaired)

/-- The parts of a written string are joined to its characters. -/
theorem joinParts_partOf (characters : List Char) :
    joinParts (characters.map partOf) = some characters := by
  induction characters with
  | nil => rfl
  | cons first rest ih =>
      rw [List.map_cons]
      by_cases unit : first.toNat < 0x20 ∧ first ∉ ['\x08', '\x0c', '\n', '\r', '\t']
      · rw [partOf, if_pos unit, joinParts_unit (by omega), ih, Option.map_some,
          Char.ofNat_toNat]
      · rw [partOf, if_neg unit, joinParts, ih, Option.map_some]

/-- A string literal ends in the characters that were written. -/
theorem run_writeString (idle : machine.lexeme = .idle)
    (started : machine.startText = some { machine with lexeme := .text [] }) (text : String) :
    machine.run (writeString text) = machine.endText (text.toList.map partOf).reverse := by
  rcases machine with ⟨frames, place, lexeme⟩
  cases idle
  have opened : step ⟨frames, place, .idle⟩ '"' = some ⟨frames, place, .text []⟩ := started
  rw [writeString, List.cons_append, run_of_step opened, run_append, run_escaped rfl,
    Option.bind_some, List.append_nil]
  exact List.foldlM_cons.trans (bind_pure _)

theorem joinParts_reverse (text : String) :
    (joinParts (text.toList.map partOf).reverse.reverse).map String.ofList = some text := by
  rw [List.reverse_reverse, joinParts_partOf, Option.map_some, String.ofList_toList]

/-- A string where a value may come is supplied at once. -/
theorem run_string (idle : machine.lexeme = .idle)
    (place : machine.place = .value ∨ machine.place = .valueOrEnd) (text : String) :
    machine.run (writeString text) = machine.supply (.string text) := by
  have started : machine.startText = some { machine with lexeme := .text [] } := by
    rw [startText]
    rcases place with expected | expected <;> rw [expected]
  rw [run_writeString idle started, endText, joinParts_reverse]
  rcases place with expected | expected <;> rw [expected] <;> rfl

/-- A string where a key may come names the field that follows. -/
theorem run_key {held : List (String × Value)} {key : String} {outer : List Frame} {place : Place}
    (expected : place = .key ∨ place = .keyOrEnd) (text : String) :
    run ⟨.fields held true key :: outer, place, .idle⟩ (writeString text) =
      some ⟨.fields held true text :: outer, .colon, .idle⟩ := by
  have started : startText ⟨.fields held true key :: outer, place, .idle⟩ =
      some ⟨.fields held true key :: outer, place, .text []⟩ := by
    rcases expected with rfl | rfl <;> rfl
  rw [run_writeString rfl started, endText, joinParts_reverse]
  rcases expected with rfl | rfl <;> rfl

end Texts

section Containers

theorem Settles.run_gap (settles : next.Settles machine) {gap : List Char} (spaces : Gap gap)
    (outside : inWord character = false) (text : List Char) :
    machine.run (gap ++ character :: text) = next.run (character :: text) := by
  cases gap with
  | nil => exact settles.run outside text
  | cons first rest =>
      have apart := inWord_of_isSpace (spaces first List.mem_cons_self)
      rw [List.cons_append, settles.run apart, ← List.cons_append, run_append,
        run_spaces settles.idle spaces, Option.bind_some]

/-- A container that is closed in time is supplied to the machine that was to take it. -/
theorem leave_eq_supply {frames : List Frame} {place : Place}
    (expected : place = .value ∨ place = .valueOrEnd) (shallow : frames.length < depthLimit)
    (container : Value) : leave frames container = supply ⟨frames, place, .idle⟩ container := by
  rw [leave, if_pos shallow]
  rcases expected with rfl | rfl <;> rfl

theorem step_opening (frames : List Frame) {place : Place}
    (expected : place = .value ∨ place = .valueOrEnd) :
    step ⟨frames, place, .idle⟩ '[' = some ⟨.items [] :: frames, .valueOrEnd, .idle⟩ ∧
      step ⟨frames, place, .idle⟩ '{' = some ⟨.fields [] true "" :: frames, .keyOrEnd, .idle⟩ := by
  rcases expected with rfl | rfl <;> exact ⟨rfl, rfl⟩

/-- A name with its colon is read up to the value of the field. -/
theorem run_name {held : List (String × Value)} {key : String} {outer : List Frame} {place : Place}
    (expected : place = .key ∨ place = .keyOrEnd) {opening inner : List Char} (opens : Gap opening)
    (spaces : Gap inner) (name : String) (text : List Char) :
    run ⟨.fields held true key :: outer, place, .idle⟩
        (opening ++ (writeString name ++ ':' :: (inner ++ text))) =
      run ⟨.fields held true name :: outer, .value, .idle⟩ text := by
  have colon : step ⟨.fields held true name :: outer, .colon, .idle⟩ ':' =
      some ⟨.fields held true name :: outer, .value, .idle⟩ := rfl
  rw [run_append, run_spaces rfl opens, Option.bind_some, run_append, run_key expected,
    Option.bind_some, run_of_step colon, run_append, run_spaces rfl spaces, Option.bind_some]

end Containers

mutual

/-- Reading a layout of a value supplies the value. -/
theorem run_laid {room : ℕ} {value : Value} {text : List Char} (laid : Laid room value text)
    {frames : List Frame} {place : Place} {next : Machine}
    (expected : place = .value ∨ place = .valueOrEnd) (shallow : frames.length + room ≤ depthLimit)
    (supplied : supply ⟨frames, place, .idle⟩ value = some next) :
    ∃ last, run ⟨frames, place, .idle⟩ text = some last ∧ next.Settles last := by
  obtain ⟨openArray, openObject⟩ := step_opening frames expected
  cases laid with
  | word spells => exact run_word spells rfl expected supplied
  | string text =>
      exact ⟨next, (run_string rfl expected text).trans supplied, .same (supply_idle supplied)⟩
  | noItems =>
      have closed : step ⟨.items [] :: frames, .valueOrEnd, .idle⟩ ']' = some next :=
        (leave_eq_supply expected (by omega) _).trans supplied
      refine ⟨next, ?_, .same (supply_idle supplied)⟩
      rw [run_of_step openArray, run_of_step closed]
      rfl
  | noFields =>
      have closed : step ⟨.fields [] true "" :: frames, .keyOrEnd, .idle⟩ '}' = some next :=
        (leave_eq_supply expected (by omega) _).trans supplied
      refine ⟨next, ?_, .same (supply_idle supplied)⟩
      rw [run_of_step openObject, run_of_step closed]
      rfl
  | @array room item items opening text more closing opens first further closes =>
      have deeper : (Frame.items [] :: frames).length + room ≤ depthLimit := by
        rw [List.length_cons]
        omega
      obtain ⟨behindFirst, runFirst, settlesFirst⟩ := run_laid first (.inr rfl) deeper rfl
      obtain ⟨behindAll, runFurther, settlesAll⟩ := run_laidItems further (by omega) settlesFirst
      have closed : step ⟨.items (items.reverse ++ [item]) :: frames, .behindValue, .idle⟩ ']' =
          some next := by
        refine (leave_eq_supply expected (by omega) _).trans ?_
        rwa [List.reverse_append, List.reverse_reverse]
      refine ⟨next, ?_, .same (supply_idle supplied)⟩
      rw [run_of_step openArray, run_append, run_spaces rfl opens, Option.bind_some, run_append,
        runFirst, Option.bind_some, run_append, runFurther, Option.bind_some,
        settlesAll.run_gap closes rfl, run_of_step closed]
      rfl
  | @object room name value fields opening inner text more closing opens spaces first further
      closes =>
      have deeper : (Frame.fields [] true name :: frames).length + room ≤ depthLimit := by
        rw [List.length_cons]
        omega
      obtain ⟨behindFirst, runFirst, settlesFirst⟩ := run_laid first (.inl rfl) deeper rfl
      obtain ⟨behindAll, key, runFurther, settlesAll⟩ :=
        run_laidFields further (by omega) settlesFirst
      have closed : step ⟨.fields (fields.reverse ++ [(name, value)]) true key :: frames,
          .behindValue, .idle⟩ '}' = some next := by
        refine (leave_eq_supply expected (by omega) _).trans ?_
        rwa [if_pos rfl, List.reverse_append, List.reverse_reverse]
      refine ⟨next, ?_, .same (supply_idle supplied)⟩
      rw [run_of_step openObject, run_name (.inr rfl) opens spaces, run_append, runFirst,
        Option.bind_some, run_append, runFurther, Option.bind_some,
        settlesAll.run_gap closes rfl, run_of_step closed]
      rfl

/-- Reading further items adds them to the array around them. -/
theorem run_laidItems {room : ℕ} {items : List Value} {text : List Char}
    (laid : LaidItems room items text) {held : List Value} {outer : List Frame} {last : Machine}
    (shallow : outer.length + 1 + room ≤ depthLimit)
    (settles : Settles ⟨.items held :: outer, .behindValue, .idle⟩ last) :
    ∃ final, last.run text = some final ∧
      Settles ⟨.items (items.reverse ++ held) :: outer, .behindValue, .idle⟩ final := by
  cases laid with
  | nil => exact ⟨last, rfl, settles⟩
  | @cons room item items opening text more opens first further =>
      have deeper : (Frame.items held :: outer).length + room ≤ depthLimit := shallow
      obtain ⟨behindFirst, runFirst, settlesFirst⟩ := run_laid first (.inl rfl) deeper rfl
      obtain ⟨final, runFurther, settlesAll⟩ := run_laidItems further shallow settlesFirst
      have comma : step ⟨.items held :: outer, .behindValue, .idle⟩ ',' =
          some ⟨.items held :: outer, .value, .idle⟩ := rfl
      refine ⟨final, ?_, ?_⟩
      · rw [settles.run rfl, run_of_step comma, run_append, run_spaces rfl opens,
          Option.bind_some, run_append, runFirst, Option.bind_some, runFurther]
      · rwa [List.reverse_cons, List.append_assoc]

/-- Reading further fields adds them to the object around them. -/
theorem run_laidFields {room : ℕ} {fields : List (String × Value)} {text : List Char}
    (laid : LaidFields room fields text) {held : List (String × Value)} {key : String}
    {outer : List Frame} {last : Machine} (shallow : outer.length + 1 + room ≤ depthLimit)
    (settles : Settles ⟨.fields held true key :: outer, .behindValue, .idle⟩ last) :
    ∃ final key, last.run text = some final ∧
      Settles ⟨.fields (fields.reverse ++ held) true key :: outer, .behindValue, .idle⟩ final := by
  cases laid with
  | nil => exact ⟨last, key, rfl, settles⟩
  | @cons room name value fields opening inner text more opens spaces first further =>
      have deeper : (Frame.fields held true name :: outer).length + room ≤ depthLimit := shallow
      obtain ⟨behindFirst, runFirst, settlesFirst⟩ := run_laid first (.inl rfl) deeper rfl
      obtain ⟨final, lastKey, runFurther, settlesAll⟩ :=
        run_laidFields further shallow settlesFirst
      have comma : step ⟨.fields held true key :: outer, .behindValue, .idle⟩ ',' =
          some ⟨.fields held true key :: outer, .key, .idle⟩ := rfl
      refine ⟨final, lastKey, ?_, ?_⟩
      · rw [settles.run rfl, run_of_step comma, run_name (.inl rfl) opens spaces, run_append,
          runFirst, Option.bind_some, runFurther]
      · rwa [List.reverse_cons, List.append_assoc]

end

end Machine

/-- Text that is a layout of a value is read as that value. -/
theorem read_of_laid {room : ℕ} {value : Value} {text : List Char} (laid : Laid room value text)
    (shallow : room ≤ depthLimit) : read (String.ofList text) = some value := by
  have room : ([] : List Frame).length + room ≤ depthLimit := by
    rwa [List.length_nil, Nat.zero_add]
  obtain ⟨last, runs, settles⟩ := Machine.run_laid laid (.inl rfl) room rfl
  have ran : List.foldlM Machine.step {} text = some last := runs
  rw [read, String.toList_ofList, ran, Option.bind_some, settles.finish]
  rfl

theorem readBytes_toUTF8 (text : String) : readBytes text.toUTF8 = read text := by
  have whole : String.fromUTF8? text.toUTF8 = some text := by
    rw [String.fromUTF8?, String.toUTF8_eq_toByteArray, dif_pos text.isValidUTF8]
    rfl
  rw [readBytes, whole]

variable {value : Value}

/-- What is written without spaces is read back. -/
theorem Readable.readBytes_text (readable : Readable depthLimit value) :
    readBytes value.text.toUTF8 = some value := by
  rw [readBytes_toUTF8, Value.text, read_of_laid readable.laid_characters le_rfl]

/-- What is written over several lines is read back. -/
theorem Readable.readBytes_spreadText (readable : Readable depthLimit value) :
    readBytes value.spreadText.toUTF8 = some value := by
  rw [readBytes_toUTF8, Value.spreadText, read_of_laid (readable.laid_spread 0) le_rfl]

end Quill.Json
