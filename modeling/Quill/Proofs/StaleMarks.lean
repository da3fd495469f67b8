import Quill.Proofs.BufferSessions

/-!
# Marks that have gone stale

A mark is a length and a column.  A buffer that has never been cut below the length since the mark
was taken still begins with the same text, so the mark leads back to it; and a mark past the end is
ignored.  But a text that was cut below the mark and has grown over it again is cut at the length
all the same, wherever that is, and gets the column of the text that is gone.
-/

namespace Quill

theorem splitAtByte_some {offset : Nat} {characters before after : List Char}
    (split : splitAtByte offset characters = some (before, after)) :
    characters = before ++ after ∧ String.utf8Len before = offset := by
  induction characters generalizing offset before with
  | nil =>
      cases offset with
      | zero =>
          rw [splitAtByte] at split
          cases split
          exact ⟨rfl, rfl⟩
      | succ offset => cases split
  | cons character rest ih =>
      cases offset with
      | zero =>
          rw [splitAtByte] at split
          cases split
          exact ⟨rfl, rfl⟩
      | succ offset =>
          rw [splitAtByte] at split
          split at split
          · rename_i fits
            obtain ⟨⟨front, back⟩, found, equal⟩ := Option.map_eq_some_iff.mp split
            cases equal
            obtain ⟨rfl, size⟩ := ih found
            refine ⟨rfl, ?_⟩
            rw [String.utf8Len_cons, size]
            omega
          · cases split

namespace Buffer

variable {layout : Layout} {buffer taken rewound : Buffer} {mark : Mark}

/-- A mark past the end is ignored. -/
theorem rewind?_of_past (past : buffer.size < mark.length) :
    buffer.rewind? mark = some buffer := by
  have beyond : ¬ mark.length ≤ buffer.size := Nat.not_le.mpr past
  rw [rewind?, if_neg fun both => beyond both.1, rewind]
  split
  · rename_i before after split
    obtain ⟨text, size⟩ := splitAtByte_some split
    have whole : buffer.size = String.utf8Len before + String.utf8Len after := by
      rw [Buffer.size, ← utf8Len_toList, text, String.utf8Len_append]
    omega
  · rfl

/-- A mark that is not past the end leaves as many bytes as it says, and its own column. -/
theorem rewind?_inside (inside : mark.length ≤ buffer.size)
    (cut : buffer.rewind? mark = some rewound) :
    rewound.text.toList <+: buffer.text.toList ∧ rewound.size = mark.length ∧
      rewound.column = mark.column := by
  rw [rewind?] at cut
  split at cut
  · cases cut
  · rename_i free
    have position : buffer.HasPosition mark.length := by
      by_contra none
      exact free ⟨inside, none⟩
    obtain ⟨before, after, text, size⟩ := hasPosition_iff.mp position
    rw [rewind_of_append text size] at cut
    cases cut
    rw [text]
    exact ⟨toList_prefix_iff.mpr ⟨after, rfl⟩, size, rfl⟩

/-- A text is no longer than one that it begins with only if it is the same. -/
theorem toList_prefix_of_le {text other : String} (starts : other.toList <+: text.toList)
    (most : text.utf8ByteSize ≤ other.utf8ByteSize) : text.toList <+: other.toList := by
  obtain ⟨rest, rfl⟩ := toList_prefix_iff.mp starts
  rw [String.utf8ByteSize_append] at most
  have none : rest = "" := String.utf8ByteSize_eq_zero_iff.mp (by omega)
  rw [none, String.append_empty]

namespace Session

variable {session next last start : Session} {action : Action} {actions : List Action}
  {answer : Option Nat} {answers : List (Option Nat)} {length : Nat}

/-- At no time is the text shorter than given. -/
def StaysAbove (layout : Layout) (length : Nat) (session : Session) : List Action → Prop
  | [] => length ≤ session.buffer.size
  | action :: rest => length ≤ session.buffer.size ∧
    ∀ served ∈ session.act layout action, served.1.StaysAbove layout length rest

instance decidableStaysAbove (layout : Layout) (length : Nat) : (session : Session) →
    (actions : List Action) → Decidable (session.StaysAbove layout length actions)
  | session, [] => inferInstanceAs (Decidable (length ≤ session.buffer.size))
  | session, action :: rest =>
    have (next : Session) : Decidable (next.StaysAbove layout length rest) :=
      decidableStaysAbove layout length next rest
    inferInstanceAs (Decidable (length ≤ session.buffer.size ∧
      ∀ served ∈ session.act layout action, served.1.StaysAbove layout length rest))

/-- Whatever is done with a buffer appends to its text, or drops the end of it. -/
theorem act_grows_or_cuts (acted : session.act layout action = some (next, answer)) :
    session.buffer.text.toList <+: next.buffer.text.toList ∨
      next.buffer.text.toList <+: session.buffer.text.toList := by
  cases action with
  | write piece =>
      cases acted
      refine .inl (toList_prefix_iff.mpr ?_)
      dsimp only
      cases put : session.buffer.put layout piece with
      | mk after result =>
          cases result with
          | error failure =>
              rw [put_error put]
              exact ⟨"", String.append_empty.symm⟩
          | ok count =>
              obtain ⟨added, grows⟩ := wrote_grows layout session.buffer piece
              rw [put_ok put]
              exact ⟨added, grows.text⟩
  | indentIn | indentOut | mark =>
      cases acted
      exact .inl (List.prefix_refl _)
  | clear | reset =>
      cases acted
      exact .inr List.nil_prefix
  | rewind index =>
      simp only [act] at acted
      split at acted
      · cases acted
        exact .inl (List.prefix_refl _)
      · rename_i taken found
        obtain ⟨rewound, cut, equal⟩ := Option.map_eq_some_iff.mp acted
        cases equal
        rcases Nat.lt_or_ge session.buffer.size taken.mark.length with past | inside
        · rw [rewind?_of_past past] at cut
          cases cut
          exact .inl (List.prefix_refl _)
        · exact .inr (rewind?_inside inside cut).1

theorem StaysAbove.here (above : session.StaysAbove layout length actions) :
    length ≤ session.buffer.size := by
  cases actions with
  | nil => exact above
  | cons action rest => exact above.1

/-- What a text begins with stays as long as the text is never cut below it. -/
theorem StaysAbove.begins {text : String}
    (above : session.StaysAbove layout text.utf8ByteSize actions)
    (starts : text.toList <+: session.buffer.text.toList)
    (ran : session.run layout actions = some (last, answers)) :
    text.toList <+: last.buffer.text.toList := by
  induction actions generalizing session answers with
  | nil =>
      cases ran
      exact starts
  | cons action rest ih =>
      obtain ⟨-, later⟩ := above
      rw [run] at ran
      obtain ⟨⟨next, answer⟩, acted, others⟩ := Option.bind_eq_some_iff.mp ran
      obtain ⟨⟨last, further⟩, ended, equal⟩ := Option.map_eq_some_iff.mp others
      cases equal
      have above := later _ acted
      refine ih above ?_ ended
      rcases act_grows_or_cuts acted with grown | cut
      · exact starts.trans grown
      · rcases List.prefix_or_prefix_of_prefix starts cut with longer | shorter
        · exact longer
        · exact toList_prefix_of_le shorter above.here

end Session

/-- Rewinding does what it should: it leaves the text and the column alone, or brings those back
that the buffer had when the mark was taken. -/
def RestoresOrKeeps (buffer taken : Buffer) : Prop :=
  ∃ rewound, buffer.rewind? taken.mark = some rewound ∧
    (rewound.text = buffer.text ∧ rewound.column = buffer.column ∨
      rewound.text = taken.text ∧ rewound.column = taken.column)

theorem restoresOrKeeps_iff : RestoresOrKeeps buffer taken ↔
    buffer.size < taken.size ∨ taken.text.toList <+: buffer.text.toList ∨
      buffer.size = taken.size ∧ buffer.column = taken.column := by
  constructor
  · rintro ⟨rewound, cut, outcome⟩
    rcases Nat.lt_or_ge buffer.size taken.size with past | inside
    · exact .inl past
    · obtain ⟨starts, size, column⟩ := rewind?_inside inside cut
      rcases outcome with ⟨text, same⟩ | ⟨text, -⟩
      · have whole : rewound.size = buffer.size := congrArg String.utf8ByteSize text
        exact .inr (.inr ⟨whole.symm.trans size, same.symm.trans column⟩)
      · rw [text] at starts
        exact .inr (.inl starts)
  · rintro (past | starts | ⟨size, column⟩)
    · exact ⟨buffer, rewind?_of_past past, .inl ⟨rfl, rfl⟩⟩
    · exact ⟨_, rewind?_of_begins starts, .inr ⟨rfl, rfl⟩⟩
    · have length : buffer.size = taken.mark.length := size
      have position := buffer.hasPosition_size
      rw [length] at position
      refine ⟨buffer.rewind taken.mark, ?_, .inl ?_⟩
      · rw [rewind?, if_neg (not_and_not_right.mpr fun _ => position)]
      · rw [rewind_of_append String.append_empty.symm length]
        exact ⟨rfl, column.symm⟩

/-- What becomes of a mark through any uses of a buffer.  Past the end of the text it is ignored.
If the text was never shorter than when the mark was taken, rewinding restores the text and the
column of that time.  Otherwise the text may be cut somewhere else, or not at all because that would
be inside a character: rewinding restores or keeps the text and the column just if the mark is past
the end, the text still begins with that of the mark, or it has the same length and column. -/
theorem marks_restore_until_cut_below {start last : Session} {actions : List Action}
    {answers : List (Option Nat)} (ran : start.run layout actions = some (last, answers)) :
    let taken := start.buffer
    let rewound := last.buffer.rewind? taken.mark
    (last.buffer.size < taken.size → rewound = some last.buffer) ∧
      (start.StaysAbove layout taken.size actions → rewound =
        some { last.buffer with text := taken.text, column := taken.column }) ∧
      (∀ after, taken.size ≤ last.buffer.size → rewound = some after →
        after.text.toList <+: last.buffer.text.toList ∧ after.size = taken.size ∧
          after.column = taken.column) ∧
      (RestoresOrKeeps last.buffer taken ↔
        last.buffer.size < taken.size ∨ taken.text.toList <+: last.buffer.text.toList ∨
          last.buffer.size = taken.size ∧ last.buffer.column = taken.column) := by
  intro taken rewound
  refine ⟨fun past => rewind?_of_past past, fun above => ?_,
    fun after inside cut => rewind?_inside inside cut, restoresOrKeeps_iff⟩
  exact rewind?_of_begins (above.begins (List.prefix_refl _) ran)

/-- A mark that is rewound to behind other writes, an inner mark and a rewind to that. -/
theorem mark_restores_behind_inner_rewind :
    let start : Session := ⟨⟨"ab", 2, 0⟩, []⟩
    let actions : List Action := [.write (.plain "c\n"), .mark, .write (.plain "λ"), .rewind 0]
    ∃ last answers, start.run {} actions = some (last, answers) ∧
      start.StaysAbove {} 2 actions ∧ last.buffer = ⟨"abc\n", 0, 0⟩ ∧
      last.buffer.rewind? start.buffer.mark = some ⟨"ab", 2, 0⟩ := by
  intro start actions
  have ran : start.run {} actions =
      some (⟨⟨"abc\n", 0, 0⟩, [⟨"abc\n", 0, 0⟩]⟩, [some 2, none, some 2, none]) := by
    decide +kernel
  have above : start.StaysAbove {} 2 actions := by decide +kernel
  exact ⟨_, _, ran, above, rfl, (marks_restore_until_cut_below ran).2.1 above⟩

/-- A mark behind `ab` that the text was cut below and has grown over again: it is cut behind its
first line break, with the column of the text that is gone.  Another one lies inside a character. -/
theorem stale_mark_gives_stale_column :
    let fresh : Session := {}
    let regrown (text : String) : List Action :=
      [.write (.plain "ab"), .mark, .clear, .write (.plain text), .rewind 0]
    (fresh.run {} (regrown "x\ny")).map (fun served => served.1.buffer) = some ⟨"x\n", 2, 0⟩ ∧
      lastColumn "x\n" = 0 ∧ ¬ RestoresOrKeeps ⟨"x\ny", 1, 0⟩ ⟨"ab", 2, 0⟩ ∧
      fresh.run {} (regrown "xλ") = none := by
  refine ⟨by decide +kernel, by decide +kernel, ?_, by decide +kernel⟩
  rw [restoresOrKeeps_iff]
  decide +kernel

end Buffer

end Quill
