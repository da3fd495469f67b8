import Quill.Proofs.Indenting
import Quill.Proofs.Room
import Quill.Proofs.Truncation

/-!
# Sessions with a buffer

A buffer is written to, cleared and rewound to marks that were taken on it, in any order.  It keeps
its column beside its text and counts it forward, while a mark remembers no more than a length and a
column.  As long as a buffer is rewound only to marks whose text is still what the present one
begins with, all that can be seen of it follows from a plain text and an indentation: the column is
the number of characters behind the last line break, a write appends what is missing up to the
indentation and its own text, and what does not fit leaves everything as it was.
-/

namespace Quill

/-- The number of characters behind the last line break of a text. -/
def lastColumn (text : String) : Nat :=
  (text.toList.reverse.takeWhile (· ≠ '\n')).length

namespace Buffer

/-- What can be done with a buffer.  Marks are remembered in the order in which they are taken, and
the buffer is rewound to one of them. -/
inductive Action
  | write (piece : Piece)
  | indentIn
  | indentOut
  | clear
  | reset
  | mark
  | rewind (index : Nat)
  deriving DecidableEq, Repr

/-- A buffer, and the states of it that marks were taken in. -/
structure Session where
  buffer : Buffer := {}
  taken : List Buffer := []
  deriving DecidableEq, Repr

/-- Rewind a buffer, unless its text would have to be cut inside a character. -/
def rewind? (buffer : Buffer) (mark : Mark) : Option Buffer :=
  if mark.length ≤ buffer.size ∧ ¬ buffer.HasPosition mark.length then none
  else some (buffer.rewind mark)

namespace Session

/-- Do something with a buffer.  The answer to a write that is done is the number of its bytes. -/
def act (layout : Layout) (session : Session) : Action → Option (Session × Option Nat)
  | .write piece =>
    let served := session.buffer.put layout piece
    some ({ session with buffer := served.1 }, served.2.toOption)
  | .indentIn => some ({ session with buffer := session.buffer.indentIn }, none)
  | .indentOut => some ({ session with buffer := session.buffer.indentOut }, none)
  | .clear => some ({ session with buffer := session.buffer.clear }, none)
  | .reset => some ({ session with buffer := session.buffer.reset }, none)
  | .mark => some ({ session with taken := session.taken ++ [session.buffer] }, none)
  | .rewind index =>
    match session.taken[index]? with
    | none => some (session, none)
    | some taken =>
      (session.buffer.rewind? taken.mark).map fun buffer => ({ session with buffer }, none)

def run (layout : Layout) (session : Session) : List Action → Option (Session × List (Option Nat))
  | [] => some (session, [])
  | action :: rest =>
    (session.act layout action).bind fun served =>
      (served.1.run layout rest).map fun ended => (ended.1, served.2 :: ended.2)

/-- A buffer is rewound only to marks whose text it still begins with. -/
def Live (session : Session) : Action → Prop
  | .rewind index =>
    ∃ taken ∈ session.taken[index]?, taken.text.toList <+: session.buffer.text.toList
  | _ => True

/-- Whenever a buffer is rewound it still begins with the text of the mark. -/
def LiveRun (layout : Layout) (session : Session) : List Action → Prop
  | [] => True
  | action :: rest =>
    session.Live action ∧ ∀ served ∈ session.act layout action, served.1.LiveRun layout rest

instance (session : Session) : (action : Action) → Decidable (session.Live action)
  | .rewind index => inferInstanceAs (Decidable (∃ taken ∈ session.taken[index]?, _))
  | .write _ | .indentIn | .indentOut | .clear | .reset | .mark => inferInstanceAs (Decidable True)

instance decidableLiveRun (layout : Layout) : (session : Session) → (actions : List Action) →
    Decidable (session.LiveRun layout actions)
  | _, [] => inferInstanceAs (Decidable True)
  | session, action :: rest =>
    have (next : Session) : Decidable (next.LiveRun layout rest) :=
      decidableLiveRun layout next rest
    inferInstanceAs (Decidable (session.Live action ∧
      ∀ served ∈ session.act layout action, served.1.LiveRun layout rest))

end Session

end Buffer

/-- What a buffer stands for: a text and an indentation, and the texts that marks were taken
behind. -/
structure Draft where
  text : String := ""
  indent : Nat := 0
  taken : List String := []
  deriving DecidableEq, Repr

namespace Draft

def extended (draft : Draft) (text : String) : Draft :=
  { draft with text := draft.text ++ spaces (draft.indent - lastColumn draft.text) ++ text }

/-- The draft behind a piece, which stands on a line of its own if it is to be wrapped, would run
past the wrap column and does not end its line. -/
def wrote (layout : Layout) (draft : Draft) : Piece → Draft
  | .plain text => draft.extended text
  | .wrapping text =>
    if layout.wrapColumn < lastColumn draft.text + text.length ∧
        text.toList.getLast? ≠ some '\n' then
      (draft.extended "\n").extended text
    else draft.extended text

/-- Write a piece, if it is not too long and there is room for the whole of it. -/
def write (layout : Layout) (draft : Draft) (piece : Piece) : Draft × Option Nat :=
  let longer := (draft.wrote layout piece).text.utf8ByteSize
  if piece.Short ∧ layout.HasRoom longer then
    (draft.wrote layout piece, some (longer - draft.text.utf8ByteSize))
  else (draft, none)

/-- What an action means for the text. -/
def act (layout : Layout) (draft : Draft) : Buffer.Action → Draft × Option Nat
  | .write piece => draft.write layout piece
  | .indentIn => ({ draft with indent := draft.indent + 1 }, none)
  | .indentOut => ({ draft with indent := draft.indent - 1 }, none)
  | .clear => ({ draft with text := "" }, none)
  | .reset => ({ draft with text := "", indent := 0 }, none)
  | .mark => ({ draft with taken := draft.taken ++ [draft.text] }, none)
  | .rewind index => ({ draft with text := draft.taken[index]?.getD draft.text }, none)

def run (layout : Layout) (draft : Draft) : List Buffer.Action → Draft × List (Option Nat)
  | [] => (draft, [])
  | action :: rest =>
    let served := draft.act layout action
    let ended := served.1.run layout rest
    (ended.1, served.2 :: ended.2)

end Draft

section Columns

variable {text added : String}

theorem columnAfter_append (column : Nat) (first second : List Char) :
    columnAfter column (first ++ second) = columnAfter (columnAfter column first) second :=
  List.foldl_append

/-- The column of a text is counted forward from its beginning. -/
theorem lastColumn_eq (text : String) : lastColumn text = columnAfter 0 text.toList := by
  rw [lastColumn]
  generalize text.toList = characters
  induction characters using List.reverseRecOn with
  | nil => rfl
  | append_singleton front last ih =>
      rw [columnAfter_append, ← ih, List.reverse_concat]
      by_cases newline : last = '\n'
      · simp [columnAfter, newline]
      · simp [columnAfter, newline]

theorem lastColumn_append : lastColumn (text ++ added) =
    columnAfter (lastColumn text) added.toList := by
  rw [lastColumn_eq, lastColumn_eq, String.toList_append, columnAfter_append]

theorem toList_prefix_iff : text.toList <+: added.toList ↔ ∃ rest, added = text ++ rest := by
  constructor
  · rintro ⟨rest, split⟩
    refine ⟨String.ofList rest, ?_⟩
    rw [← String.toList_inj, String.toList_append, String.toList_ofList, split]
  · rintro ⟨rest, rfl⟩
    rw [String.toList_append]
    exact List.prefix_append _ _

theorem columnAfter_spaces (column count : Nat) :
    columnAfter column (spaces count).toList = column + count := by
  rw [columnAfter_single (singleLine_spaces count), toList_spaces, List.length_replicate]

end Columns

theorem Draft.taken_write (draft : Draft) (layout : Layout) (piece : Piece) :
    (draft.write layout piece).1.taken = draft.taken := by
  rw [write]
  split
  · cases piece with
    | plain text => rfl
    | wrapping text =>
        dsimp only [wrote]
        split <;> rfl
  · rfl

namespace Buffer

variable {layout : Layout} {buffer taken written : Buffer} {draft : Draft} {piece : Piece}
  {text added : String} {count : Nat}

/-- A buffer has the text and the indentation of a draft, and its column is that of the text. -/
structure Follows (buffer : Buffer) (draft : Draft) : Prop where
  text : buffer.text = draft.text
  indent : buffer.indent = draft.indent
  column : buffer.column = lastColumn buffer.text

theorem Follows.extended (follows : buffer.Follows draft) (text : String) :
    (buffer.extended text).Follows (draft.extended text) := by
  have column : buffer.column = lastColumn draft.text := follows.text ▸ follows.column
  refine ⟨?_, follows.indent, ?_⟩
  · rw [Buffer.extended, Draft.extended, follows.text, follows.indent, column]
  · rw [Buffer.extended]
    dsimp only
    rw [lastColumn_append, lastColumn_append, columnAfter_spaces, ← follows.column]

theorem Follows.breaksLine_iff (follows : buffer.Follows draft) :
    buffer.breaksLine layout text = true ↔
      layout.wrapColumn < lastColumn draft.text + text.length ∧
        text.toList.getLast? ≠ some '\n' := by
  rw [breaksLine, follows.column, follows.text, Bool.and_eq_true, decide_eq_true_iff, bne_iff_ne]

theorem Follows.wrote (follows : buffer.Follows draft) (layout : Layout) (piece : Piece) :
    (buffer.wrote layout piece).Follows (draft.wrote layout piece) := by
  cases piece with
  | plain text => exact follows.extended text
  | wrapping text =>
      rw [Buffer.wrote, Draft.wrote]
      by_cases breaks : buffer.breaksLine layout text = true
      · rw [if_pos breaks, if_pos (follows.breaksLine_iff.mp breaks)]
        exact (follows.extended "\n").extended text
      · rw [if_neg breaks, if_neg (mt follows.breaksLine_iff.mpr breaks)]
        exact follows.extended text

/-- A write answers with the number of bytes that the text has grown by. -/
theorem append_growth (success : buffer.append layout text = (written, .ok count)) :
    written.size = buffer.size + count := by
  rw [append_ok success, size_extended]
  simp only [append] at success
  split at success
  · simp at success
  · simp only [Prod.mk.injEq, Except.ok.injEq] at success
    rw [← success.2]

theorem put_growth (success : buffer.put layout piece = (written, .ok count)) :
    written.size = buffer.size + count := by
  cases piece with
  | plain text => exact append_growth success
  | wrapping text =>
      simp only [put, appendWrapping] at success
      split at success
      · simp at success
      split at success
      · simp at success
      rename_i broken breakCount start
      have first : broken.size = buffer.size + breakCount := by
        split at start
        · exact append_growth start
        · simp only [Prod.mk.injEq, Except.ok.injEq] at start
          rw [← start.1, ← start.2, Nat.add_zero]
      split at success
      · rename_i last count appended
        simp only [Prod.mk.injEq, Except.ok.injEq] at success
        rw [← success.1, ← success.2, append_growth appended, first, Nat.add_assoc]
      · simp at success

theorem put_of_long (long : ¬ piece.Short) :
    ∃ failure, buffer.put layout piece = (buffer, .error failure) := by
  cases piece with
  | plain text => exact (long trivial).elim
  | wrapping text => exact ⟨_, by rw [put, appendWrapping, if_pos (Nat.lt_of_not_le long)]⟩

/-- A write to a buffer and one to a draft lead to the same text and are answered alike. -/
structure Agrees (layout : Layout) (served : Buffer × Except Failure Nat)
    (drafted : Draft × Option Nat) : Prop where
  follows : served.1.Follows drafted.1
  answer : served.2.toOption = drafted.2
  room : layout.HasRoom served.1.size

theorem Follows.unwritten (follows : buffer.Follows draft) (room : layout.HasRoom buffer.size)
    (failed : ∃ failure, (buffer.put layout piece).2 = .error failure)
    (full : ¬ (piece.Short ∧ layout.HasRoom (draft.wrote layout piece).text.utf8ByteSize)) :
    Agrees layout (buffer.put layout piece) (draft.write layout piece) := by
  obtain ⟨failure, failed⟩ := failed
  have still : buffer.put layout piece = (buffer, .error failure) :=
    Prod.ext (put_error (Prod.ext rfl failed)) failed
  rw [Draft.write, if_neg full, still]
  exact ⟨follows, rfl, room⟩

theorem Follows.put (follows : buffer.Follows draft) (room : layout.HasRoom buffer.size)
    (piece : Piece) : Agrees layout (buffer.put layout piece) (draft.write layout piece) := by
  have wrote := follows.wrote layout piece
  have size : (buffer.wrote layout piece).size = (draft.wrote layout piece).text.utf8ByteSize :=
    congrArg String.utf8ByteSize wrote.text
  by_cases short : piece.Short
  · by_cases fits : layout.HasRoom (buffer.wrote layout piece).size
    · obtain ⟨count, put⟩ := put_eq_ok short fits
      have growth := put_growth put
      rw [put, Draft.write, if_pos ⟨short, size ▸ fits⟩]
      refine ⟨wrote, congrArg some ?_, fits⟩
      rw [size, Buffer.size, follows.text] at growth
      omega
    · refine follows.unwritten room ⟨_, put_eq_error short fits⟩ fun both => fits ?_
      rw [size]
      exact both.2
  · obtain ⟨failure, put⟩ := @put_of_long layout buffer piece short
    exact follows.unwritten room ⟨failure, congrArg Prod.snd put⟩ fun both => short both.1

/-- A buffer that begins with the text of a mark is rewound to that text and its column. -/
theorem rewind?_of_begins (starts : taken.text.toList <+: buffer.text.toList) :
    buffer.rewind? taken.mark =
      some { buffer with text := taken.text, column := taken.column } := by
  obtain ⟨rest, text⟩ := toList_prefix_iff.mp starts
  have position : buffer.HasPosition taken.mark.length := taken.hasPosition_size.append text
  rw [rewind?, if_neg (not_and_not_right.mpr fun _ => position)]
  exact congrArg some (rewind_of_append text rfl)

namespace Session

variable {session next : Session} {action : Action} {actions : List Action}

/-- A session is one with a draft: the buffer follows it and is within the limit, and the marks were
taken behind the same texts, in the columns of these. -/
structure Refines (layout : Layout) (session : Session) (draft : Draft) : Prop where
  follows : session.buffer.Follows draft
  room : layout.HasRoom session.buffer.size
  taken : session.taken.map Buffer.text = draft.taken
  columns : ∀ taken ∈ session.taken, taken.column = lastColumn taken.text

/-- Nothing that is done with a buffer while its marks are live makes a difference between it and
its draft. -/
theorem Refines.act (refines : session.Refines layout draft) (live : session.Live action) :
    ∃ next, session.act layout action = some (next, (draft.act layout action).2) ∧
      next.Refines layout (draft.act layout action).1 := by
  obtain ⟨follows, room, taken, columns⟩ := refines
  cases action with
  | write piece =>
      obtain ⟨written, answer, fits⟩ := follows.put room piece
      have kept : (draft.write layout piece).1.taken = draft.taken := draft.taken_write layout piece
      refine ⟨_, congrArg (fun answer => some (_, answer)) answer, written, fits, ?_, columns⟩
      exact taken.trans kept.symm
  | indentIn =>
      exact ⟨_, rfl, ⟨follows.text, congrArg (· + 1) follows.indent, follows.column⟩, room, taken,
        columns⟩
  | indentOut =>
      exact ⟨_, rfl, ⟨follows.text, congrArg (· - 1) follows.indent, follows.column⟩, room, taken,
        columns⟩
  | clear =>
      exact ⟨_, rfl, ⟨rfl, follows.indent, rfl⟩, room.mono (Nat.zero_le _), taken, columns⟩
  | reset => exact ⟨_, rfl, ⟨rfl, rfl, rfl⟩, room.mono (Nat.zero_le _), taken, columns⟩
  | mark =>
      refine ⟨_, rfl, ⟨follows.text, follows.indent, follows.column⟩, room, ?_, ?_⟩
      · rw [List.map_append, taken, List.map_singleton, follows.text]
        rfl
      · refine List.forall_mem_append.mpr ⟨columns, List.forall_mem_singleton.mpr ?_⟩
        exact follows.column
  | rewind index =>
      obtain ⟨mark, found, starts⟩ := live
      rw [Option.mem_def] at found
      have behind : draft.taken[index]? = some mark.text := by
        rw [← taken, List.getElem?_map, found, Option.map_some]
      have shorter : mark.size ≤ session.buffer.size := by
        obtain ⟨rest, text⟩ := toList_prefix_iff.mp starts
        rw [size, size, text, String.utf8ByteSize_append]
        exact Nat.le_add_right _ _
      refine ⟨{ session with buffer := { session.buffer with
        text := mark.text, column := mark.column } }, ?_, ?_⟩
      · simp only [Session.act, found, rewind?_of_begins starts, Option.map_some]
        rfl
      · rw [Draft.act, behind, Option.getD_some]
        exact ⟨⟨rfl, follows.indent, columns mark (List.mem_of_getElem? found)⟩, room.mono shorter,
          taken, columns⟩

theorem Refines.run (refines : session.Refines layout draft)
    (live : session.LiveRun layout actions) :
    ∃ last, session.run layout actions = some (last, (draft.run layout actions).2) ∧
      last.Refines layout (draft.run layout actions).1 := by
  induction actions generalizing session draft with
  | nil => exact ⟨session, rfl, refines⟩
  | cons action rest ih =>
      obtain ⟨here, later⟩ := live
      obtain ⟨next, acted, further⟩ := refines.act here
      obtain ⟨last, ran, ended⟩ := ih further (later _ acted)
      refine ⟨last, ?_, ended⟩
      rw [Session.run, acted, Option.bind_some, ran]
      rfl

theorem refines_fresh (layout : Layout) : ({} : Session).Refines layout {} where
  follows := ⟨rfl, rfl, rfl⟩
  room _ _ := Nat.zero_le _
  taken := rfl
  columns := List.forall_mem_nil _

/-- A buffer refines a plain text.  Whatever is done with it, for any wrap column and any limit, as
long as it is rewound only to live marks: everything can be done, every write is answered as the
draft answers it, and in the end the buffer has the text and the indentation of the draft, its
column is the number of characters behind the last line break, and the text is within the limit. -/
theorem buffers_refine_texts {layout : Layout} {actions : List Action}
    (live : ({} : Session).LiveRun layout actions) :
    let ended := ({} : Draft).run layout actions
    ∃ last, ({} : Session).run layout actions = some (last, ended.2) ∧
      last.buffer.text = ended.1.text ∧ last.buffer.indent = ended.1.indent ∧
      last.buffer.column = lastColumn last.buffer.text ∧ layout.HasRoom last.buffer.size := by
  intro ended
  obtain ⟨last, ran, refines⟩ := (refines_fresh layout).run live
  exact ⟨last, ran, refines.follows.text, refines.follows.indent, refines.follows.column,
    refines.room⟩

/-- Behind an indentation: a wrapped write that is taken back by a rewind to a live mark, and a
write that there is no room for. -/
theorem buffers_refine_texts_through_rewind :
    let layout : Layout := ⟨5, some 13⟩
    let actions : List Action := [.indentIn, .write (.plain "λ\n"), .write (.plain "ab"), .mark,
      .write (.wrapping "cde"), .write (.plain "fg"), .rewind 0, .write (.wrapping "c\n")]
    ({} : Session).LiveRun layout actions ∧
      ∃ last, ({} : Session).run layout actions =
          some (last, [none, some 4, some 3, none, some 5, none, none, some 2]) ∧
        last.buffer.text = " λ\n abc\n" ∧ last.buffer.column = 0 := by
  intro layout actions
  have live : ({} : Session).LiveRun layout actions := by decide +kernel
  obtain ⟨last, ran, text, -, column, -⟩ := @buffers_refine_texts layout actions live
  have answers : (({} : Draft).run layout actions).2 =
      [none, some 4, some 3, none, some 5, none, none, some 2] := by decide +kernel
  have ended : (({} : Draft).run layout actions).1.text = " λ\n abc\n" := by decide +kernel
  rw [ended] at text
  rw [text] at column
  exact ⟨live, last, answers ▸ ran, text, column.trans (by decide +kernel)⟩

end Session

end Buffer

end Quill
