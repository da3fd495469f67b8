import Quill.Proofs.PathData

/-!
# Words of path data

White space separates the words of path data.  The words of a command are its groups of
arguments, the first of them behind the letter of the command unless that is left out, and a
group is separated into the texts of its arguments by a comma.  No word is empty, none holds a
quote, and a group does not begin with a letter of a command, not even if an argument is written
as a word itself.
-/

namespace Quill.Path

def Segment.arguments : Segment → List String
  | .move x y | .line x y | .smoothQuadratic x y => [Number.coordinate x, Number.coordinate y]
  | .horizontal x => [Number.coordinate x]
  | .vertical y => [Number.coordinate y]
  | .curve x1 y1 x2 y2 x y => [x1, y1, x2, y2, x, y].map Number.coordinate
  | .quadratic x1 y1 x y => [x1, y1, x, y].map Number.coordinate
  | .smoothCurve x2 y2 x y => [x2, y2, x, y].map Number.coordinate
  | .arc rx ry rotation large sweep x y =>
    [rx, ry, rotation].map Number.coordinate ++ [flag large, flag sweep] ++
      [x, y].map Number.coordinate

/-- The operation and the mode that a letter stands for. -/
def ofLetter? : Char → Option State
  | 'M' => some ⟨.move, .absolute⟩
  | 'm' => some ⟨.move, .relative⟩
  | 'L' => some ⟨.line, .absolute⟩
  | 'l' => some ⟨.line, .relative⟩
  | 'H' => some ⟨.horizontal, .absolute⟩
  | 'h' => some ⟨.horizontal, .relative⟩
  | 'V' => some ⟨.vertical, .absolute⟩
  | 'v' => some ⟨.vertical, .relative⟩
  | 'C' => some ⟨.curve, .absolute⟩
  | 'c' => some ⟨.curve, .relative⟩
  | 'S' => some ⟨.smoothCurve, .absolute⟩
  | 's' => some ⟨.smoothCurve, .relative⟩
  | 'Q' => some ⟨.quadratic, .absolute⟩
  | 'q' => some ⟨.quadratic, .relative⟩
  | 'T' => some ⟨.smoothQuadratic, .absolute⟩
  | 't' => some ⟨.smoothQuadratic, .relative⟩
  | 'A' => some ⟨.arc, .absolute⟩
  | 'a' => some ⟨.arc, .relative⟩
  | 'Z' => some ⟨.close, .absolute⟩
  | 'z' => some ⟨.close, .relative⟩
  | _ => none

/-- The number of argument groups that an operation takes. -/
def Operation.arity : Operation → Nat
  | .none | .close => 0
  | .move | .line | .horizontal | .vertical | .smoothQuadratic => 1
  | .quadratic | .smoothCurve => 2
  | .curve => 3
  | .arc => 5

/-- The words between white space. -/
def words (text : List Char) : List (List Char) :=
  (text.splitOnP Text.isBlank).filter fun word => !word.isEmpty

/-- The texts in a group of arguments. -/
def splitGroup (group : List Char) : List String :=
  (group.splitOnP (· == ',')).map String.ofList

section Characters

variable {character : Char} {state : State}

/-- The characters of numbers separate neither words nor arguments and do not quote. -/
theorem isPrinted_apart (printed : Number.isPrinted character) :
    Text.isBlank character = false ∧ character ≠ ',' ∧ character ≠ '\'' := by
  rw [Number.isPrinted, Bool.or_eq_true, List.contains_iff_mem] at printed
  rcases printed with digit | others
  · simp only [Char.isDigit, Bool.and_eq_true, decide_eq_true_eq] at digit
    have least : 48 ≤ character.toNat := digit.1
    have most : character.toNat ≤ 57 := digit.2
    refine ⟨?_, ?_, ?_⟩
    · simp [Text.isBlank]
      omega
    · rintro rfl
      exact absurd least (by decide)
    · rintro rfl
      exact absurd least (by decide)
  · simp only [List.mem_cons, List.not_mem_nil, or_false] at others
    rcases others with rfl | rfl | rfl | rfl | rfl | rfl | rfl | rfl <;> decide

theorem ofLetter?_of_isLeading (leading : Number.isLeading character) :
    ofLetter? character = none := by
  fun_cases ofLetter? character with
  | case21 => rfl
  | _ => cases leading

theorem ofLetter?_apart (letter : ofLetter? character = some state) :
    Text.isBlank character = false ∧ character ≠ '\'' := by
  revert letter
  fun_cases ofLetter? character with
  | case21 => exact fun none => nomatch none
  | _ => exact fun _ => by decide

theorem solid_of_letter (letter : ofLetter? character = some state) (rest : List Char) :
    Solid (character :: rest) := by
  have named : (ofLetter? character).isSome = true := by rw [letter, Option.isSome_some]
  exact solid_of_visible (fun letter => (ofLetter? letter).isSome) rfl named rest

theorem ofLetter?_letter {operation : Operation} {mode : Mode} (named : operation ≠ .none)
    (known : mode ≠ .unset) :
    ofLetter? ((operation.letter? mode).getD '?') = some ⟨operation, mode⟩ := by
  cases mode with
  | unset => exact (known rfl).elim
  | _ =>
      cases operation with
      | none => exact (named rfl).elim
      | _ => rfl

end Characters

/-- A group of arguments, as it stands between spaces. -/
structure IsGroup (characters : List Char) : Prop where
  inside : ∀ character ∈ characters, Number.isPrinted character ∨ character = ','
  leading : ∃ first rest, characters = first :: rest ∧ Number.isLeading first

/-- A run of characters without white space and quotes. -/
structure IsWord (word : List Char) : Prop where
  nonempty : word ≠ []
  solid : ∀ character ∈ word, Text.isBlank character = false
  unquoted : '\'' ∉ word

section Groups

variable {group word rest : List Char} {groups : List (List Char)}

theorem coordinate_isGroup (x : Float) : IsGroup (Number.coordinate x).toList := by
  have written := Number.significant_written 4 x
  exact ⟨fun character member => .inl (written.printed character member), written.leading⟩

theorem coordinatePair_isGroup (x y : Float) : IsGroup (Number.coordinatePair x y).toList := by
  obtain ⟨first, rest, equal, leading⟩ := (coordinate_isGroup x).leading
  simp only [Number.coordinatePair, String.toList_append]
  refine ⟨?_, first, rest ++ ",".toList ++ (Number.coordinate y).toList, ?_, leading⟩
  · intro character member
    rcases List.mem_append.mp member with before | behind
    · rcases List.mem_append.mp before with before | comma
      · exact (coordinate_isGroup x).inside character before
      · exact .inr (List.mem_singleton.mp comma)
    · exact (coordinate_isGroup y).inside character behind
  · rw [equal]
    rfl

theorem flag_isGroup (value : Bool) : IsGroup (flag value).toList := by
  cases value with
  | false => exact ⟨List.forall_mem_singleton.mpr (.inl (by decide)), '0', [], rfl, by decide⟩
  | true => exact ⟨List.forall_mem_singleton.mpr (.inl (by decide)), '1', [], rfl, by decide⟩

theorem Segment.isGroup (segment : Segment) : ∀ group ∈ segment.groups, IsGroup group.toList := by
  cases segment <;>
    simp [groups, coordinate_isGroup, coordinatePair_isGroup, flag_isGroup]

theorem Segment.length_groups (segment : Segment) :
    segment.groups.length = segment.operation.arity := by
  cases segment <;> rfl

theorem splitGroup_of_no_comma (apart : ∀ character ∈ group, character ≠ ',') :
    splitGroup group = [String.ofList group] := by
  rw [splitGroup, List.splitOnP_eq_singleton]
  · rfl
  · intro character member
    simpa using apart character member

theorem coordinate_no_comma (x : Float) :
    ∀ character ∈ (Number.coordinate x).toList, character ≠ ',' := fun character member =>
  (isPrinted_apart ((Number.significant_written 4 x).printed character member)).2.1

theorem splitGroup_coordinate (x : Float) :
    splitGroup (Number.coordinate x).toList = [Number.coordinate x] := by
  rw [splitGroup_of_no_comma (coordinate_no_comma x), String.ofList_toList]

theorem splitGroup_coordinatePair (x y : Float) :
    splitGroup (Number.coordinatePair x y).toList =
      [Number.coordinate x, Number.coordinate y] := by
  have pair : (Number.coordinatePair x y).toList =
      (Number.coordinate x).toList ++ ',' :: (Number.coordinate y).toList := by
    simp only [Number.coordinatePair, String.toList_append, List.append_assoc]
    rfl
  have before := splitGroup_coordinate x
  have behind := splitGroup_coordinate y
  rw [splitGroup] at before behind
  rw [splitGroup, pair, List.splitOnP_append_cons _ _ rfl, List.map_append, before, behind]
  rfl

theorem splitGroup_flag (value : Bool) : splitGroup (flag value).toList = [flag value] := by
  cases value <;> decide

/-- The groups of a segment hold its arguments. -/
theorem Segment.flatMap_splitGroup (segment : Segment) :
    (segment.groups.map String.toList).flatMap splitGroup = segment.arguments := by
  cases segment <;>
    simp [groups, arguments, splitGroup_coordinate, splitGroup_coordinatePair, splitGroup_flag]

theorem IsGroup.isWord (isGroup : IsGroup group) : IsWord group := by
  obtain ⟨first, rest, rfl, -⟩ := isGroup.leading
  refine ⟨List.cons_ne_nil _ _, ?_, ?_⟩
  · intro character member
    rcases isGroup.inside character member with printed | rfl
    · exact (isPrinted_apart printed).1
    · decide
  · intro quote
    rcases isGroup.inside _ quote with printed | comma
    · exact (isPrinted_apart printed).2.2 rfl
    · cases comma

/-- A text that does not go on with a word. -/
def Apart (text : List Char) : Prop :=
  ∀ character ∈ text.head?, Text.isBlank character

theorem words_append_blank {character : Char} (blank : Text.isBlank character)
    (before behind : List Char) :
    words (before ++ character :: behind) = words before ++ words behind := by
  rw [words, List.splitOnP_append_cons _ _ blank, List.filter_append]
  rfl

theorem words_cons_blank {character : Char} (blank : Text.isBlank character)
    (text : List Char) : words (character :: text) = words text :=
  words_append_blank blank [] text

theorem words_gap {gap : List Char} (blank : ∀ character ∈ gap, Text.isBlank character)
    (text : List Char) : words (gap ++ text) = words text := by
  induction gap with
  | nil => rfl
  | cons first rest ih =>
      rw [List.cons_append, words_cons_blank (blank first List.mem_cons_self)]
      exact ih fun character member => blank character (List.mem_cons_of_mem _ member)

theorem words_word (isWord : IsWord word) : words word = [word] := by
  rw [words, List.splitOnP_eq_singleton isWord.solid]
  exact List.filter_cons_of_pos (by simpa using isWord.nonempty)

theorem words_word_append (isWord : IsWord word) (apart : Apart rest) :
    words (word ++ rest) = word :: words rest := by
  cases rest with
  | nil =>
      rw [List.append_nil, words_word isWord]
      rfl
  | cons first others =>
      have blank : Text.isBlank first := apart first rfl
      rw [words_append_blank blank, words_word isWord, words_cons_blank blank]
      rfl

theorem words_intercalate (isWord : ∀ word ∈ groups, IsWord word) (apart : Apart rest) :
    words ([' '].intercalate groups ++ rest) = groups ++ words rest := by
  induction groups with
  | nil => rfl
  | cons word others ih =>
      have first := isWord word List.mem_cons_self
      cases others with
      | nil =>
          rw [List.intercalate_singleton, words_word_append first apart]
          rfl
      | cons second others =>
          have space : Apart ([' '] ++ ([' '].intercalate (second :: others) ++ rest)) := by
            intro character head
            cases head
            decide
          rw [List.intercalate_cons_cons, List.append_assoc, List.append_assoc,
            words_word_append first space, words_gap (List.forall_mem_singleton.mpr (by decide)),
            ih fun word member => isWord word (List.mem_cons_of_mem _ member)]
          rfl

theorem quote_notMem_intercalate (isWord : ∀ word ∈ groups, IsWord word) :
    '\'' ∉ [' '].intercalate groups := by
  induction groups with
  | nil => exact List.not_mem_nil
  | cons word others ih =>
      have first := isWord word List.mem_cons_self
      cases others with
      | nil =>
          rw [List.intercalate_singleton]
          exact first.unquoted
      | cons second others =>
          intro quote
          rw [List.intercalate_cons_cons] at quote
          rcases List.mem_append.mp quote with before | behind
          · rcases List.mem_append.mp before with inside | space
            · exact first.unquoted inside
            · exact absurd space (by decide)
          · exact ih (fun word member => isWord word (List.mem_cons_of_mem _ member)) behind

end Groups

namespace Command

variable {state : State} {command : Command}

def words (state : State) (command : Command) : List (List Char) :=
  match command.groups with
  | [] => [(command.token state).letters]
  | first :: others =>
    ((command.token state).letters ++ first.toList) :: others.map String.toList

theorem mode_ne_unset (state : State) (command : Command) : command.mode state ≠ .unset := by
  cases command with
  | close =>
      rw [mode, State.closeMode]
      split <;> exact Mode.noConfusion
  | segment mode command => cases mode <;> exact Mode.noConfusion

/-- A command is written without its letter only if it repeats the one before; otherwise the
letter stands for its operation and its mode. -/
theorem letters_cases (state : State) (command : Command) :
    (command.token state).letters = [] ∧ command.next state = state ∧
        command.operation ≠ .close ∨
      ∃ letter, (command.token state).letters = [letter] ∧
        ofLetter? letter = some (command.next state) := by
  rw [token, State.token]
  split
  · rename_i repeated
    exact .inl ⟨rfl, repeated.2.symm, repeated.1⟩
  · refine .inr ⟨(command.operation.letter? (command.mode state)).getD '?', ?_,
      ofLetter?_letter command.operation_ne_none (command.mode_ne_unset state)⟩
    split <;> rfl

theorem letters_solid {character : Char} (member : character ∈ (command.token state).letters) :
    Text.isBlank character = false ∧ character ≠ '\'' := by
  rcases command.letters_cases state with ⟨none, -⟩ | ⟨letter, one, named⟩
  · rw [none] at member
    cases member
  · rw [one] at member
    rw [List.mem_singleton.mp member]
    exact ofLetter?_apart named

theorem groups_isGroup (command : Command) : ∀ group ∈ command.groups, IsGroup group.toList := by
  cases command with
  | close => exact fun _ member => nomatch member
  | segment mode command => exact command.isGroup

theorem written_eq_words (state : State) (command : Command) :
    command.written state = [' '].intercalate (command.words state) := by
  rw [written, words, String.toList_intercalate]
  split
  · rename_i none
    rw [none, List.intercalate_singleton]
    exact List.append_nil _
  · rename_i first others equal
    rw [equal, List.map_cons]
    cases others with
    | nil => simp only [List.map_nil, List.intercalate_singleton]
    | cons second others =>
        rw [List.map_cons, List.intercalate_cons_cons, List.intercalate_cons_cons]
        simp only [List.append_assoc]
        rfl

theorem words_isWord (state : State) (command : Command) :
    ∀ word ∈ command.words state, IsWord word := by
  intro word member
  rw [words] at member
  split at member
  · rename_i none
    rw [List.mem_singleton.mp member]
    refine ⟨?_, fun character member => (letters_solid member).1,
      fun quote => (letters_solid quote).2 rfl⟩
    rcases command.letters_cases state with ⟨-, -, open'⟩ | ⟨letter, one, -⟩
    · cases command with
      | close => exact (open' rfl).elim
      | segment mode command => cases command <;> cases none
    · rw [one]
      exact List.cons_ne_nil _ _
  · rename_i first others equal
    have isGroup := command.groups_isGroup
    rw [equal] at isGroup
    rcases List.mem_cons.mp member with rfl | behind
    · have firstWord := (isGroup first List.mem_cons_self).isWord
      refine ⟨?_, ?_, ?_⟩
      · intro empty
        exact firstWord.nonempty (List.append_eq_nil_iff.mp empty).2
      · intro character member
        rcases List.mem_append.mp member with letter | inside
        · exact (letters_solid letter).1
        · exact firstWord.solid character inside
      · intro quote
        rcases List.mem_append.mp quote with letter | inside
        · exact (letters_solid letter).2 rfl
        · exact firstWord.unquoted inside
    · obtain ⟨group, among, rfl⟩ := List.mem_map.mp behind
      exact (isGroup group (List.mem_cons_of_mem _ among)).isWord

end Command

section Data

variable {state : State} {commands : List Command} {text : List Char}

/-- Behind a command path data does not go on with its last word. -/
theorem Data.apart (data : Data state commands text) (begun : state.operation ≠ .none) :
    Apart text := by
  intro character head
  cases data with
  | done spacing => exact spacing.isBlank character (List.mem_of_mem_head? head)
  | command spacing apart rest =>
      obtain ⟨first, others, rfl⟩ := List.exists_cons_of_ne_nil (apart begun)
      cases head
      exact spacing.isBlank _ List.mem_cons_self

theorem Data.quoteless (data : Data state commands text) : '\'' ∉ text := by
  induction data with
  | done spacing => exact fun quote => absurd (spacing _ quote) (by decide)
  | @command state command commands gap text spacing apart rest ih =>
      intro quote
      rcases List.mem_append.mp quote with inGap | behind
      · exact absurd (spacing _ inGap) (by decide)
      · rcases List.mem_append.mp behind with inside | later
        · rw [command.written_eq_words] at inside
          exact quote_notMem_intercalate (command.words_isWord state) inside
        · exact ih later

end Data

end Quill.Path
