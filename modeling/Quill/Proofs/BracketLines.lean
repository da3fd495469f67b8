import Quill.Proofs.Operands

/-!
# Lines that open and close

Read line by line, a program says which brackets it opens and closes, each called by a word.  What
was read of a text is kept in a reader, which can go on with more text.  A line that did not start
like an opening or closing one stays silent however it goes on.
-/

namespace Quill

open Lexing (skip skip_spacing)

/-- What a line says about brackets. -/
inductive BracketLine where
  | push (word : String)
  | pop (word : String)
  deriving DecidableEq, Repr

/-- The keywords of lines about brackets, and what such a line says about a word. -/
inductive BracketLine.Leads : String → (String → BracketLine) → Prop
  | push : Leads "push" .push
  | pop : Leads "pop" .pop

/-- The word at the start of a text, up to a space. -/
def firstWord (text : List Char) : String :=
  String.ofList (text.takeWhile (· != ' '))

def bracketLine? (line : List Char) : Option BracketLine :=
  match operand? "push" line with
  | some operand => some (.push (firstWord operand))
  | none => (operand? "pop" line).map fun operand => .pop (firstWord operand)

def bracketLines (text : String) : List BracketLine :=
  (text.toList.splitOn '\n').filterMap bracketLine?

/-- The words of the brackets that are left open, the last one first.  A closing line closes what
was opened last under its word; there is nothing left to say if there is none. -/
def leftOpen? (opened : List String) : List BracketLine → Option (List String)
  | [] => some opened
  | .push word :: rest => leftOpen? (word :: opened) rest
  | .pop word :: rest => if word ∈ opened then leftOpen? (opened.erase word) rest else none

/-- A text that closes what it opens and nothing else. -/
def SelfContained (text : String) : Prop :=
  leftOpen? [] (bracketLines text) = some []

instance (text : String) : Decidable (SelfContained text) :=
  inferInstanceAs (Decidable (_ = _))

/-- What was read of a text: what its whole lines say, and the line that goes on. -/
structure LineReader where
  found : List BracketLine := []
  line : List Char := []

namespace LineReader

def step (reader : LineReader) (character : Char) : LineReader :=
  if character = '\n' then ⟨reader.found ++ (bracketLine? reader.line).toList, []⟩
  else { reader with line := reader.line ++ [character] }

def read (reader : LineReader) (text : List Char) : LineReader :=
  text.foldl step reader

/-- What was found if the text ends here. -/
def all (reader : LineReader) : List BracketLine :=
  reader.found ++ (bracketLine? reader.line).toList

end LineReader

/-- A line that says nothing about brackets, however it goes on. -/
def Foreign (line : List Char) : Prop :=
  ∀ more, bracketLine? (line ++ more) = none

/-- A line that has not begun, or says nothing however it goes on. -/
def AtRest (line : List Char) : Prop :=
  line = [] ∨ Foreign line

/-- A text that does not start like an opening or closing line. -/
def Unbracketed (text : List Char) : Prop :=
  Solid text ∧ Diverges text "push ".toList ∧ Diverges text "pop ".toList

instance (text : List Char) : Decidable (Unbracketed text) :=
  inferInstanceAs (Decidable (_ ∧ _ ∧ _))

/-- A line that is blank so far, or says nothing however it goes on. -/
def Settled (line : List Char) : Prop :=
  IsSpacing line ∨ Foreign line

/-- A text that says nothing about brackets, wherever it is put, and rests at its end. -/
def Bracketless (text : List Char) : Prop :=
  ∀ reader : LineReader, Settled reader.line →
    (reader.read text).found = reader.found ∧ AtRest (reader.read text).line

section Lines

variable {gap line text more word : List Char}

theorem Unbracketed.append (unbracketed : Unbracketed text) (more : List Char) :
    Unbracketed (text ++ more) :=
  ⟨unbracketed.1.append more, unbracketed.2.1.append more, unbracketed.2.2.append more⟩

theorem Unbracketed.bracketLine? (unbracketed : Unbracketed text) (spacing : IsSpacing gap) :
    Quill.bracketLine? (gap ++ text) = none := by
  have push : operand? "push" (gap ++ text) = none :=
    operand?_of_diverges spacing unbracketed.1 unbracketed.2.1
  have pop : operand? "pop" (gap ++ text) = none :=
    operand?_of_diverges spacing unbracketed.1 unbracketed.2.2
  simp only [Quill.bracketLine?, push, pop, Option.map_none]

theorem Unbracketed.foreign (unbracketed : Unbracketed text) (spacing : IsSpacing gap) :
    Foreign (gap ++ text) := by
  intro more
  rw [List.append_assoc]
  exact (unbracketed.append more).bracketLine? spacing

theorem Foreign.append (foreign : Foreign line) (more : List Char) : Foreign (line ++ more) := by
  intro further
  rw [List.append_assoc]
  exact foreign _

theorem Foreign.bracketLine? (foreign : Foreign line) : Quill.bracketLine? line = none := by
  simpa using foreign []

theorem operand?_of_spaceless (word : String) (spacing : IsSpacing gap)
    (spaceless : ' ' ∉ text) : operand? word (gap ++ text) = none := by
  rw [operand?, skip_spacing spacing, Option.map_eq_none_iff, Option.eq_none_iff_forall_ne_some]
  intro rest starts
  rw [List.isPrefixOf?_eq_some_iff_append_eq] at starts
  have space : ' ' ∈ skip text := by
    rw [← starts]
    simp
  exact spaceless ((List.dropWhile_suffix _).subset space)

/-- Without a space behind its word, a line opens and closes nothing. -/
theorem bracketLine?_of_spaceless (spacing : IsSpacing gap) (spaceless : ' ' ∉ text) :
    bracketLine? (gap ++ text) = none := by
  simp only [bracketLine?, operand?_of_spaceless _ spacing spaceless, Option.map_none]

theorem IsSpacing.bracketLine? (spacing : IsSpacing gap) : Quill.bracketLine? gap = none := by
  simpa using bracketLine?_of_spaceless spacing (List.not_mem_nil)

end Lines

section Reading

variable {reader : LineReader} {gap line text first second : List Char} {word : String}

theorem LineReader.read_append (reader : LineReader) (first second : List Char) :
    reader.read (first ++ second) = (reader.read first).read second :=
  List.foldl_append

theorem LineReader.read_newline (reader : LineReader) :
    reader.read ['\n'] = ⟨reader.all, []⟩ :=
  rfl

theorem LineReader.read_line (reader : LineReader) (single : '\n' ∉ text) :
    reader.read text = { reader with line := reader.line ++ text } := by
  induction text generalizing reader with
  | nil => simp [read]
  | cons character rest ih =>
      simp only [List.mem_cons, not_or] at single
      have stepped : reader.step character = { reader with line := reader.line ++ [character] } :=
        if_neg (Ne.symm single.1)
      have others := ih (reader.step character) single.2
      rw [read] at others ⊢
      rw [List.foldl_cons, others, stepped, List.append_assoc, List.singleton_append]

theorem modifyHead_nil_append (lines : List (List Char)) :
    lines.modifyHead ([] ++ ·) = lines := by
  cases lines <;> rfl

/-- The line that goes on belongs before the first line of a text. -/
theorem LineReader.all_read (reader : LineReader) (text : List Char) :
    (reader.read text).all = reader.found ++
      ((text.splitOn '\n').modifyHead (reader.line ++ ·)).filterMap bracketLine? := by
  induction text generalizing reader with
  | nil =>
      simp only [read, List.foldl_nil, all, List.splitOn_nil, List.modifyHead_cons,
        List.append_nil, List.filterMap_cons, List.filterMap_nil]
      cases bracketLine? reader.line <;> rfl
  | cons character rest ih =>
      have others := ih (reader.step character)
      rw [read] at others ⊢
      rw [List.foldl_cons, others, List.splitOn_eq_splitOnP, List.splitOn_eq_splitOnP,
        List.splitOnP_cons_eq_if_modifyHead, step]
      by_cases newline : character = '\n'
      · subst newline
        simp only [if_true, beq_self_eq_true, modifyHead_nil_append, List.modifyHead_cons,
          List.append_nil, List.filterMap_cons, List.append_assoc]
        cases bracketLine? reader.line <;> rfl
      · simp [newline, Function.comp_def]

theorem bracketLines_eq_read (text : String) :
    bracketLines text = (LineReader.read {} text.toList).all := by
  rw [LineReader.all_read, modifyHead_nil_append]
  rfl

theorem AtRest.settled (rest : AtRest line) : Settled line := by
  rcases rest with rfl | foreign
  · exact .inl nofun
  · exact .inr foreign

theorem Settled.bracketLine? (settled : Settled line) : Quill.bracketLine? line = none := by
  rcases settled with spacing | foreign
  · exact spacing.bracketLine?
  · exact foreign.bracketLine?

theorem Settled.append (settled : Settled line) (spacing : IsSpacing gap) :
    Settled (line ++ gap) := by
  rcases settled with before | foreign
  · exact .inl (before.append spacing)
  · exact .inr (foreign.append gap)

theorem Settled.read_newline (settled : Settled reader.line) :
    reader.read ['\n'] = { reader with line := [] } := by
  simp [LineReader.read_newline, LineReader.all, settled.bracketLine?]

/-- What leads up to an instruction says nothing. -/
theorem Settled.read_spacing (settled : Settled reader.line) (spacing : IsSpacing gap) :
    (reader.read gap).found = reader.found ∧ Settled (reader.read gap).line := by
  induction gap generalizing reader with
  | nil => exact ⟨rfl, settled⟩
  | cons character rest ih =>
      obtain ⟨here, behind⟩ := List.forall_mem_cons.mp spacing
      rw [← List.singleton_append, LineReader.read_append]
      rcases here with rfl | rfl
      · rw [reader.read_line (by decide)]
        have blank : IsSpacing [' '] := by simp [IsSpacing]
        exact ih (settled.append blank) behind
      · rw [settled.read_newline]
        have empty : Settled [] := .inl nofun
        exact ih empty behind

theorem Bracketless.append (before : Bracketless first) (after : Bracketless second) :
    Bracketless (first ++ second) := by
  intro reader settled
  rw [LineReader.read_append]
  obtain ⟨found, rest⟩ := before reader settled
  rw [← found]
  exact after _ rest.settled

theorem Bracketless.behind (bracketless : Bracketless text) (spacing : IsSpacing gap) :
    Bracketless (gap ++ text) := by
  intro reader settled
  rw [LineReader.read_append]
  obtain ⟨found, rest⟩ := settled.read_spacing spacing
  rw [← found]
  exact bracketless _ rest

theorem bracketless_newline : Bracketless ['\n'] := by
  intro reader settled
  rw [settled.read_newline]
  exact ⟨rfl, .inl rfl⟩

theorem Unbracketed.bracketless (unbracketed : Unbracketed text) (single : '\n' ∉ text) :
    Bracketless text := by
  intro reader settled
  rw [reader.read_line single]
  refine ⟨rfl, .inr ?_⟩
  rcases settled with spacing | foreign
  · exact unbracketed.foreign spacing
  · exact foreign.append text

/-- A whole line without a space. -/
theorem bracketless_of_spaceless (spaceless : ' ' ∉ text) (single : '\n' ∉ text) :
    Bracketless (text ++ ['\n']) := by
  intro reader settled
  rw [LineReader.read_append, reader.read_line single, LineReader.read_newline]
  refine ⟨?_, .inl rfl⟩
  have nothing : Quill.bracketLine? (reader.line ++ text) = none := by
    rcases settled with spacing | foreign
    · exact bracketLine?_of_spaceless spacing spaceless
    · exact foreign text
  simp [LineReader.all, nothing]

end Reading

section Words

variable {keyword word : String} {meaning : String → BracketLine} {tail gap : List Char}

theorem takeWhile_ne_append {stop : Char} {text : List Char} (absent : stop ∉ text)
    (apart : tail.head?.all (· == stop)) : (text ++ tail).takeWhile (· != stop) = text := by
  have all : ∀ character ∈ text, (character != stop) = true := by
    intro character member
    rw [bne_iff_ne]
    rintro rfl
    exact absent member
  rw [List.takeWhile_append_of_pos all]
  cases tail with
  | nil => simp
  | cons first rest =>
      have stops : first = stop := by simpa using apart
      simp [stops]

/-- Behind the word that opens or closes stands the word of the bracket, up to a space or the end
of the line. -/
theorem firstWord_operand (spacing : IsSpacing gap) (solid : Solid keyword.toList)
    (spaceless : ' ' ∉ word.toList) (apart : tail.head?.all (· == ' '))
    (single : '\n' ∉ word.toList ++ tail) :
    (operand? keyword (gap ++ ((keyword ++ " ").toList ++ (word.toList ++ tail)))).map firstWord =
      some word := by
  have line : (word.toList ++ tail).takeWhile (· != '\n') = word.toList ++ tail := by
    have stop : ([] : List Char).head?.all (· == '\n') := rfl
    simpa using takeWhile_ne_append single stop
  rw [operand?_word spacing solid, line, Option.map_some, firstWord,
    takeWhile_ne_append spaceless apart, String.ofList_toList]

/-- A line that starts with a keyword says what the keyword means of the word behind it. -/
theorem bracketLine?_leading (leads : BracketLine.Leads keyword meaning) (spacing : IsSpacing gap)
    (spaceless : ' ' ∉ word.toList) (apart : tail.head?.all (· == ' '))
    (single : '\n' ∉ word.toList ++ tail) :
    bracketLine? (gap ++ ((keyword ++ " ").toList ++ (word.toList ++ tail))) =
      some (meaning word) := by
  have solid : Solid keyword.toList := by cases leads <;> decide
  have named := firstWord_operand spacing solid spaceless apart single
  obtain ⟨operand, found, equal⟩ := Option.map_eq_some_iff.mp named
  cases leads with
  | push => rw [bracketLine?, found, ← equal]
  | pop =>
      have closing : Solid ("pop" ++ " ").toList := by decide
      have diverges : Diverges ("pop" ++ " ").toList ("push" ++ " ").toList := by decide
      have other := operand?_of_diverges spacing (closing.append (word.toList ++ tail))
        (diverges.append (word.toList ++ tail))
      rw [bracketLine?, other, found, ← equal]
      rfl

theorem bracketLine?_alone (leads : BracketLine.Leads keyword meaning) (spacing : IsSpacing gap)
    (spaceless : ' ' ∉ word.toList) (single : '\n' ∉ word.toList) :
    bracketLine? (gap ++ (keyword ++ " " ++ word).toList) = some (meaning word) := by
  have stop : ([] : List Char).head?.all (· == ' ') := rfl
  rw [String.toList_append, ← List.append_nil word.toList]
  exact bracketLine?_leading leads spacing spaceless stop ((List.append_nil _).symm ▸ single)

end Words

end Quill
