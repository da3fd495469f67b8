import Quill.Proofs.Splices

/-!
# Indented lines

An instruction at the start of a line is led up to the indentation, and so is each of its pieces
that goes onto a line of its own.  In the middle of a line nothing is filled in, as long as the
line has come as far as the indentation, which it has behind every text without a line break.
-/

namespace Quill

/-- Behind every line break of a text stand at least as many spaces as given. -/
def Continued (depth : Nat) (text : List Char) : Prop :=
  ∀ front rest, text = front ++ '\n' :: rest → List.replicate depth ' ' <+: rest

/-- Nothing, or exactly as many spaces as given and then something else than white space. -/
def StartsAt (depth : Nat) (text : List Char) : Prop :=
  text = [] ∨ ∃ rest, text = List.replicate depth ' ' ++ rest ∧ Solid rest

/-- The pieces of an instruction that starts with something else than white space. -/
def Leads (pieces : List Piece) : Prop :=
  ∃ text rest, pieces = .plain text :: rest ∧ Solid text.toList

/-- The pieces of an instruction whose only line break of its own is its last character. -/
def Lined (pieces : List Piece) : Prop :=
  ∃ front text, pieces = front ++ [.plain (text ++ "\n")] ∧ SingleLine text ∧
    ∀ piece ∈ front, SingleLine piece.text

section Texts

variable {depth : Nat} {first second text : List Char}

theorem Continued.append (continued : Continued depth first) (further : Continued depth second) :
    Continued depth (first ++ second) := by
  intro front rest split
  rcases List.append_eq_append_iff.mp split with ⟨more, rfl, behind⟩ | ⟨more, equal, behind⟩
  · exact further more rest behind
  · cases more with
    | nil => exact further [] rest behind.symm
    | cons newline more =>
        cases behind
        exact (continued front more equal).trans (List.prefix_append more second)

theorem Continued.of_single (single : '\n' ∉ text) : Continued depth text := by
  rintro front rest rfl
  simp at single

theorem Continued.of_break (single : '\n' ∉ text) :
    Continued depth ('\n' :: (List.replicate depth ' ' ++ text)) := by
  intro front rest split
  cases front with
  | nil =>
      cases split
      exact List.prefix_append _ _
  | cons newline front =>
      have within : '\n' ∈ List.replicate depth ' ' ++ text := by
        rw [(List.cons.inj split).2]
        exact List.mem_append_right _ List.mem_cons_self
      rcases List.mem_append.mp within with space | member
      · cases List.eq_of_mem_replicate space
      · exact (single member).elim

theorem SingleLine.behind_spaces {line : String} (single : SingleLine line) (count : Nat) :
    SingleLine (spaces count ++ line) :=
  singleLine_append.mpr ⟨singleLine_spaces count, single⟩

theorem toList_spaces (count : Nat) : (spaces count).toList = List.replicate count ' ' :=
  String.toList_ofList

theorem columnAfter_single {characters : List Char} (single : '\n' ∉ characters) (column : Nat) :
    columnAfter column characters = column + characters.length := by
  induction characters generalizing column with
  | nil => rfl
  | cons character rest ih =>
      simp only [List.mem_cons, not_or] at single
      rw [columnAfter, List.foldl_cons, if_neg (Ne.symm single.1)]
      have others := ih single.2 (column + 1)
      rw [columnAfter] at others
      rw [others, List.length_cons]
      omega

end Texts

namespace Buffer

variable {layout : Layout} {buffer : Buffer} {text : String} {piece : Piece} {pieces : List Piece}

/-- A buffer whose last line has come as far as the indentation. -/
def Filled (buffer : Buffer) : Prop :=
  buffer.indent ≤ buffer.column

theorem extended_filled (buffer : Buffer) (single : SingleLine text) :
    (buffer.extended text).Filled := by
  rw [Filled, extended]
  dsimp only
  rw [columnAfter_single single]
  omega

/-- Behind a line that has come as far as the indentation nothing is filled in. -/
theorem Filled.extended_grows (filled : buffer.Filled) (text : String) :
    Grows buffer (buffer.extended text) text := by
  have grows := buffer.extended_grows text
  rw [Nat.sub_eq_zero_of_le filled] at grows
  simpa [spaces] using grows

theorem Filled.wrote (layout : Layout) (filled : buffer.Filled) (single : SingleLine piece.text) :
    ∃ added, Grows buffer (buffer.wrote layout piece) added ∧
      (buffer.wrote layout piece).Filled ∧ Continued buffer.indent added.toList := by
  have same : ∃ added, Grows buffer (buffer.extended piece.text) added ∧
      (buffer.extended piece.text).Filled ∧ Continued buffer.indent added.toList :=
    ⟨piece.text, filled.extended_grows _, buffer.extended_filled single, .of_single single⟩
  cases piece with
  | plain text => exact same
  | wrapping text =>
      rw [Buffer.wrote]
      split
      · have broken := filled.extended_grows "\n"
        have start : (buffer.extended "\n").column = 0 := buffer.column_line ""
        have further := (buffer.extended "\n").extended_grows text
        rw [start, Nat.sub_zero, broken.indent] at further
        refine ⟨_, broken.trans further, extended_filled _ single, ?_⟩
        have newline : "\n".toList = ['\n'] := rfl
        rw [String.toList_append, String.toList_append, newline, toList_spaces]
        exact .of_break single
      · exact same

theorem Filled.wroteEach (layout : Layout) (filled : buffer.Filled)
    (single : ∀ piece ∈ pieces, SingleLine piece.text) :
    ∃ added, Grows buffer (pieces.foldl (Buffer.wrote layout) buffer) added ∧
      (pieces.foldl (Buffer.wrote layout) buffer).Filled ∧
        Continued buffer.indent added.toList := by
  induction pieces generalizing buffer with
  | nil => exact ⟨"", .refl buffer, filled, .of_single List.not_mem_nil⟩
  | cons piece rest ih =>
      obtain ⟨here, others⟩ := List.forall_mem_cons.mp single
      obtain ⟨added, grows, next, continued⟩ := filled.wrote layout here
      obtain ⟨further, goesOn, last, behind⟩ := ih next others
      refine ⟨added ++ further, grows.trans goesOn, last, ?_⟩
      rw [grows.indent] at behind
      rw [String.toList_append]
      exact continued.append behind

end Buffer

section Instructions

variable {layout : Layout} {pieces : List Piece}

theorem Leads.line {text : String} (solid : Solid text.toList) : Leads [.plain (text ++ "\n")] :=
  ⟨_, [], rfl, by rw [String.toList_append]; exact solid.append _⟩

theorem Lined.line {text : String} (single : SingleLine text) : Lined [.plain (text ++ "\n")] :=
  ⟨[], text, rfl, single, nofun⟩

/-- At the start of a line an instruction is led up to the indentation. -/
theorem Leads.startsAt (leads : Leads pieces) (layout : Layout) {buffer : Buffer}
    (column : buffer.column = 0) :
    ∃ added, Buffer.Grows buffer (pieces.foldl (Buffer.wrote layout) buffer) added ∧
      StartsAt buffer.indent added.toList := by
  obtain ⟨text, rest, rfl, solid⟩ := leads
  obtain ⟨more, others⟩ := Buffer.wroteEach_grows layout (buffer.extended text) rest
  refine ⟨_, (buffer.extended_grows text).trans others, .inr ⟨text.toList ++ more.toList, ?_, ?_⟩⟩
  · rw [column, Nat.sub_zero, String.toList_append, String.toList_append, toList_spaces,
      List.append_assoc]
  · exact solid.append _

/-- Wherever an instruction is written, its pieces that go onto a line of their own are led up to
the indentation. -/
theorem Lined.continued (lined : Lined pieces) (leads : Leads pieces) (layout : Layout)
    (buffer : Buffer) :
    ∃ body, Buffer.Grows buffer (pieces.foldl (Buffer.wrote layout) buffer) (body ++ "\n") ∧
      Continued buffer.indent body.toList := by
  obtain ⟨front, text, rfl, single, others⟩ := lined
  cases front with
  | nil =>
      refine ⟨spaces (buffer.indent - buffer.column) ++ text, ?_,
        .of_single (single.behind_spaces _)⟩
      rw [String.append_assoc]
      exact buffer.extended_grows _
  | cons first front =>
      obtain ⟨word, rest, split, -⟩ := leads
      cases split
      have here : SingleLine word := others _ List.mem_cons_self
      have begins := buffer.extended_grows word
      obtain ⟨added, goesOn, filled, continued⟩ :=
        (buffer.extended_filled here).wroteEach layout fun piece member =>
          others piece (List.mem_cons_of_mem _ member)
      have all := (begins.trans goesOn).trans (filled.extended_grows (text ++ "\n"))
      refine ⟨spaces (buffer.indent - buffer.column) ++ word ++ (added ++ text), ?_, ?_⟩
      · rw [List.cons_append, List.foldl_cons, List.foldl_append]
        simp only [String.append_assoc] at all ⊢
        exact all
      · rw [begins.indent] at continued
        rw [String.toList_append]
        refine (Continued.of_single (here.behind_spaces _)).append ?_
        rw [String.toList_append]
        exact continued.append (.of_single single)

end Instructions

end Quill
