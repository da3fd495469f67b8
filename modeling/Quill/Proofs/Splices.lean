import Quill.Proofs.Bracketless
import Quill.Script.Replay

/-!
# Texts spliced into instructions

A comment, the name of a definition and a reference to one stand in their instruction as they are
given, without quotes.  What the instruction adds to a text of this kind is on one line, so all
further line breaks of an instruction are those of the text.  A text without a line break therefore
starts no second instruction; nothing keeps one with a line break from doing so.
-/

namespace Quill

/-- The text that an instruction splices into its line. -/
def Instruction.splice? : Instruction → Option String
  | .comment text => some text
  | .bracket (.openPattern id _ _ _ _) => some id
  | .bracket (.openClipPath id) => some id
  | .setting (.clipPath id) => some id
  | .setting (.paintPattern _ url) => some url
  | _ => none

def lineBreaks (text : String) : Nat :=
  text.toList.count '\n'

/-- Nothing, or one instruction: the only line break is the last character. -/
def AtMostOneInstruction (added : String) : Prop :=
  added = "" ∨ lineBreaks added = 1 ∧ added.toList.getLast? = some '\n'

instance (added : String) : Decidable (AtMostOneInstruction added) :=
  inferInstanceAs (Decidable (_ ∨ _))

/-- A text is written as it is given, between texts on the same line. -/
def Splices (text added : String) : Prop :=
  ∃ before behind, SingleLine before ∧ SingleLine behind ∧
    added = before ++ text ++ behind ++ "\n"

/-- A plan that is refused, has nothing to do, or writes a text between others on its line. -/
inductive Plan.Splicing (drawing : Drawing) (text : String) : Plan → Prop
  | refuse (failure : Failure) : Splicing drawing text (.refuse failure)
  | keep (filtering : drawing.filtering = true) : Splicing drawing text .keep
  | line {before behind : String} (change : Change) (leading : SingleLine before)
      (trailing : SingleLine behind) :
      Splicing drawing text (.line (before ++ text ++ behind) change)

section LineBreaks

variable {text added before behind : String}

theorem lineBreaks_append (first second : String) :
    lineBreaks (first ++ second) = lineBreaks first + lineBreaks second := by
  rw [lineBreaks, String.toList_append, List.count_append, lineBreaks, lineBreaks]

theorem lineBreaks_eq_zero_iff : lineBreaks text = 0 ↔ SingleLine text :=
  List.count_eq_zero

theorem singleLine_spaces (count : Nat) : SingleLine (spaces count) := by
  rw [SingleLine, spaces, String.toList_ofList]
  intro newline
  exact absurd (List.eq_of_mem_replicate newline) (by decide)

theorem Splices.lineBreaks (splices : Splices text added) :
    lineBreaks added = lineBreaks text + 1 := by
  obtain ⟨before, behind, leading, trailing, rfl⟩ := splices
  have newline : Quill.lineBreaks "\n" = 1 := by decide
  simp only [lineBreaks_append, lineBreaks_eq_zero_iff.mpr leading,
    lineBreaks_eq_zero_iff.mpr trailing, newline, Nat.zero_add, Nat.add_zero]

theorem Splices.getLast? (splices : Splices text added) :
    added.toList.getLast? = some '\n' := by
  obtain ⟨before, behind, leading, trailing, rfl⟩ := splices
  have newline : "\n".toList = ['\n'] := by decide
  rw [String.toList_append, newline, List.getLast?_concat]

/-- A text between others is one instruction exactly if it has no line break of its own. -/
theorem Splices.atMostOneInstruction_iff (splices : Splices text added) :
    AtMostOneInstruction added ↔ SingleLine text := by
  have last := splices.getLast?
  rw [AtMostOneInstruction, splices.lineBreaks, last, ← lineBreaks_eq_zero_iff]
  constructor
  · rintro (rfl | ⟨single, -⟩)
    · cases last
    · exact Nat.succ.inj single
  · intro none
    exact .inr ⟨congrArg (· + 1) none, rfl⟩

/-- Spaces in front of a line stay on the line. -/
theorem Splices.behind_spaces (count : Nat) (leading : SingleLine before)
    (trailing : SingleLine behind) :
    Splices text (spaces count ++ (before ++ text ++ behind ++ "\n")) := by
  refine ⟨spaces count ++ before, behind, ?_, trailing, ?_⟩
  · exact singleLine_append.mpr ⟨singleLine_spaces count, leading⟩
  · simp only [String.append_assoc]

end LineBreaks

section Plans

variable {drawing : Drawing} {text : String}

theorem Plan.Splicing.checked {α : Type} {argument : Except Failure α} {plan : α → Plan}
    (accepted : ∀ value, argument = .ok value → (plan value).Splicing drawing text) :
    (Plan.checked argument plan).Splicing drawing text := by
  cases argument with
  | error failure => exact .refuse failure
  | ok value => exact accepted value rfl

theorem Plan.Splicing.update {before behind : String} (differs : Bool)
    (change : Context → Context) (leading : SingleLine before) (trailing : SingleLine behind) :
    (drawing.update differs (before ++ text ++ behind) change).Splicing drawing text := by
  rw [Drawing.update]
  split
  · rename_i elided
    exact .keep (Bool.and_eq_true_iff.mp elided).1
  · exact .line _ leading trailing

theorem Plan.Splicing.line_end {before : String} (change : Change) (leading : SingleLine before) :
    (Plan.line (before ++ text) change).Splicing drawing text := by
  have empty : SingleLine "" := by decide
  have line : (Plan.line (before ++ text ++ "") change).Splicing drawing text :=
    .line change leading empty
  rwa [String.append_empty] at line

/-- Every instruction with a text of this kind is refused, elided, or writes the text between
others on one line. -/
theorem Instruction.plan_splicing {tools : Tools} {instruction : Instruction}
    (spliced : instruction.splice? = some text) :
    (instruction.plan tools drawing).Splicing drawing text := by
  cases instruction with
  | comment given =>
      cases spliced
      exact .line_end .nothing (by decide)
  | bracket bracket =>
      cases bracket with
      | openPattern id x y width height =>
          cases spliced
          refine .checked fun name accepted => ?_
          cases Drawing.require_ok accepted
          cases drawing.pattern with
          | some capture => exact .refuse _
          | none =>
              have trailing : SingleLine (" " ++ Number.coordinatePair x y ++ " " ++
                  Number.coordinatePair width height) := by
                simp only [singleLine_append, singleLine_coordinatePair, and_true]
                decide
              have line : (Plan.line ("push pattern " ++ text ++ (" " ++
                  Number.coordinatePair x y ++ " " ++ Number.coordinatePair width height))
                    (.openPattern text (.ofRectangle x y width height))).Splicing drawing text :=
                .line _ (by decide) trailing
              simpa only [String.append_assoc] using line
      | openClipPath id =>
          cases spliced
          refine .checked fun name accepted => ?_
          cases Drawing.require_ok accepted
          exact .line_end _ (by decide)
      | openScope | closeScope | closePattern | closeClipPath | openDefs | closeDefs =>
          cases spliced
  | setting setting =>
      cases setting with
      | clipPath id =>
          cases spliced
          refine .checked fun name accepted => ?_
          cases Drawing.require_ok accepted
          rw [Drawing.clipPathPlan]
          split
          · exact .update _ _ (by decide) (by decide)
          · exact .refuse _
      | paintPattern side url =>
          cases spliced
          refine .checked fun id found => ?_
          have leading : SingleLine (side.word ++ " url(") :=
            singleLine_append.mpr ⟨side.plainWord.2, by decide⟩
          have reference : side.word ++ " url(#" ++ id ++ ")" =
              side.word ++ " url(" ++ text ++ ")" := by
            have opening : " url(#" = " url(" ++ "#" := rfl
            rw [Drawing.patternReference_ok found, opening]
            simp only [String.append_assoc]
          rw [Drawing.patternPlan, reference]
          exact .update _ _ leading (by decide)
      | _ => cases spliced
  | motion motion | shape shape | path step => cases spliced

theorem Plan.Splicing.run_done {plan : Plan} {after : Drawing}
    (splicing : plan.Splicing drawing text) (ran : plan.run drawing = (after, .done)) :
    after = drawing ∧ drawing.filtering = true ∨ Splices text (drawing.added after) := by
  have done := Plan.run_done ran
  cases splicing with
  | refuse failure => cases done
  | keep filtering =>
      cases done
      exact .inl ⟨rfl, filtering⟩
  | @line before behind change leading trailing =>
      cases done with
      | write usable =>
          have grows := Buffer.extended_grows drawing.buffer (before ++ text ++ behind ++ "\n")
          have added := Change.added_apply change grows.text
          exact .inr (added ▸ .behind_spaces _ leading trailing)

end Plans

/-- An instruction that splices a text into its line and is done either finds the text in force and
changes nothing, or writes one line with the text in it, as it was given.  So it has one line break
more than the text, at its end, and is a single instruction exactly if the text has none.  In a
script it does the same. -/
theorem spliced_texts_break_lines {tools : Tools} {drawing after : Drawing}
    {instruction : Instruction} {text : String} (spliced : instruction.splice? = some text)
    (called : drawing.call tools (.instruct instruction) = (after, .done)) :
    (after = drawing ∧ drawing.filtering = true ∨
        lineBreaks (drawing.added after) = lineBreaks text + 1 ∧
          (drawing.added after).toList.getLast? = some '\n' ∧
          Splices text (drawing.added after)) ∧
      (AtMostOneInstruction (drawing.added after) ↔ after = drawing ∨ SingleLine text) ∧
      ∀ (files : FileReader) (base : String),
        (Command.instruct instruction).run tools files base drawing = (after, .done) := by
  have splicing : (instruction.plan tools drawing).Splicing drawing text :=
    Instruction.plan_splicing spliced
  refine ⟨?_, ?_, fun files base => called⟩
  · refine (splicing.run_done called).imp_right fun splices => ?_
    exact ⟨splices.lineBreaks, splices.getLast?, splices⟩
  · by_cases same : after = drawing
    · have nothing : drawing.added after = "" := Drawing.added_nothing (same ▸ rfl)
      exact iff_of_true (.inl nothing) (.inl same)
    · have splices := (splicing.run_done called).resolve_left fun kept => same kept.1
      rw [splices.atMostOneInstruction_iff, or_iff_right same]

/-- A name with a line break opens a pattern with two lines, the second of them at the margin. -/
theorem spliced_texts_break_lines_of_pattern :
    let drawing := Drawing.start {} ⟨64, 64, .empty⟩
    let opened := (drawing.call {} (.instruct (.bracket (.openPattern "p\nq" 0 0 8 8)))).1
    drawing.added opened = "push pattern p\nq 0,0 8,8\n" ∧
      ¬ AtMostOneInstruction (drawing.added opened) := by
  intro drawing opened
  have called : drawing.call {} (.instruct (.bracket (.openPattern "p\nq" 0 0 8 8))) =
      (opened, .done) :=
    Drawing.call_of_outcome (by decide +kernel)
  refine ⟨by decide +kernel, ?_⟩
  have spliced : Instruction.splice? (.bracket (.openPattern "p\nq" 0 0 8 8)) = some "p\nq" := rfl
  rw [(spliced_texts_break_lines spliced called).2.1, not_or]
  refine ⟨?_, by decide⟩
  intro same
  have text : opened.program = drawing.program := congrArg Drawing.program same
  exact absurd text (by decide +kernel)

/-- A comment with a line break starts a second instruction, which sets the fill. -/
theorem comment_starts_instruction :
    let drawing := Drawing.start {} ⟨64, 64, .empty⟩
    let commented := drawing.call {} (.instruct (.comment "a\nfill 'red'"))
    Reachable drawing ∧ commented.2 = .done ∧
      drawing.added commented.1 = "#a\nfill 'red'\n" ∧
      ¬ AtMostOneInstruction (drawing.added commented.1) :=
  ⟨Reachable.start {} ⟨64, 64, .empty⟩, by decide +kernel, by decide +kernel, by decide +kernel⟩

end Quill
