import Mathlib.Data.List.MinMax
import Quill.Proofs.WrapColumn

/-!
# Lists of points

A curve, a polygon or a line through points is written point by point.  Whatever the wrap column
is, no point is lost and none is broken in two, and a row is wider than the wrap column only where
one point alone, or the word of the instruction, is so behind its indentation.
-/

namespace Quill

/-- The word and the points of a shape that is a list of points. -/
def Shape.points? : Shape → Option (String × List (Float × Float))
  | .bezier points => some ("bezier", points)
  | .polygon points => some ("polygon", points)
  | .polyline points => some ("polyline", points)
  | _ => none

/-- The characters that a list of points consists of but for white space: its word, and a pair of
coordinates for each point. -/
def Shape.pointWords (word : String) (points : List (Float × Float)) : List (List Char) :=
  word.toList :: points.map fun (x, y) => (Number.coordinatePair x y).toList

/-- The length of the longest piece of a list of points: its word, or a point with the space in
front of it. -/
def Shape.longestPiece (word : String) (points : List (Float × Float)) : Nat :=
  (word.length :: points.map fun (x, y) => (" " ++ Number.coordinatePair x y).length).foldr max 0

/-- The words of rows of text, one row behind the other. -/
def rowWords (rows : List String) : List (List Char) :=
  rows.flatMap fun row => Path.words row.toList

/-- Rows that hold a list of points: its words in their order, at least one in every row, in rows no
wider than a bound. -/
structure Shape.PointRows (word : String) (points : List (Float × Float)) (bound : Nat)
    (rows : List String) : Prop where
  words : rowWords rows = pointWords word points
  inhabited : ∀ row ∈ rows, Path.words row.toList ≠ []
  single : ∀ row ∈ rows, SingleLine row
  narrow : ∀ row ∈ rows, row.length ≤ bound

section Words

variable {rows : List String} {last text : String}

theorem rowWords_append (rows others : List String) :
    rowWords (rows ++ others) = rowWords rows ++ rowWords others :=
  List.flatMap_append

theorem rowWords_singleton (row : String) : rowWords [row] = Path.words row.toList :=
  List.flatMap_singleton ..

theorem words_behind_spaces (count : Nat) (text : String) :
    Path.words (spaces count ++ text).toList = Path.words text.toList := by
  rw [String.toList_append, Path.words_gap (isSpacing_spaces count).isBlank]

/-- Line breaks between rows take nothing from their words. -/
theorem words_join_rows (rows : List String) :
    Path.words (String.join (rows.map (· ++ "\n"))).toList = rowWords rows := by
  induction rows with
  | nil => rfl
  | cons first others ih =>
      have newline : "\n".toList = ['\n'] := rfl
      rw [List.map_cons, String.join_cons, String.toList_append, String.toList_append, newline,
        List.append_assoc, List.singleton_append, Path.words_append_blank (by decide), ih]
      rfl

end Words

/-- Writing that ends in the column where it began changes nothing but the text. -/
theorem Buffer.Grows.eq_of_column {start longer : Buffer} {added : String}
    (grows : Buffer.Grows start longer added) (column : longer.column = start.column) :
    longer = { start with text := start.text ++ added } := by
  obtain ⟨text, indent⟩ := grows
  cases longer
  cases text
  cases indent
  cases column
  rfl

section Points

open Shape

variable {bound : Nat} {layout : Layout} {start buffer : Buffer} {rows : List String}
  {last word : String} {points : List (Float × Float)}

theorem words_point (before : List Char) (x y : Float) :
    Path.words (before ++ (" " ++ Number.coordinatePair x y).toList) =
      Path.words before ++ [(Number.coordinatePair x y).toList] := by
  have space : " ".toList = [' '] := rfl
  rw [String.toList_append, space, List.singleton_append, Path.words_append_blank (by decide),
    Path.words_word (Path.coordinatePair_isGroup x y).isWord]

theorem singleLine_point (x y : Float) : SingleLine (" " ++ Number.coordinatePair x y) :=
  singleLine_append.mpr ⟨by decide, singleLine_coordinatePair x y⟩

/-- A point goes to the end of the last row, or to a new one; either way it is the next word. -/
theorem Buffer.Rows.point (written : Buffer.Rows bound start buffer rows last)
    (wide : layout.wrapColumn ≤ bound) (x y : Float)
    (fits : start.indent + (" " ++ Number.coordinatePair x y).length ≤ bound)
    (inhabited : ∀ row ∈ rows ++ [last], Path.words row.toList ≠ []) :
    ∃ rows' last', Buffer.Rows bound start
        (buffer.wrote layout (.wrapping (" " ++ Number.coordinatePair x y))) rows' last' ∧
      rowWords (rows' ++ [last']) =
        rowWords (rows ++ [last]) ++ [(Number.coordinatePair x y).toList] ∧
      ∀ row ∈ rows' ++ [last'], Path.words row.toList ≠ [] := by
  have alone : Path.words (" " ++ Number.coordinatePair x y).toList =
      [(Number.coordinatePair x y).toList] := words_point [] x y
  obtain ⟨others, -⟩ := List.forall_mem_append.mp inhabited
  rcases written.wrapping (singleLine_point x y) wide fits with same | broken
  · refine ⟨_, _, same, ?_, List.forall_mem_append.mpr ⟨others, ?_⟩⟩
    · simp only [rowWords_append, rowWords_singleton]
      rw [String.toList_append, words_point, List.append_assoc]
    · rw [List.forall_mem_singleton, String.toList_append, words_point]
      simp
  · refine ⟨_, _, broken, ?_, List.forall_mem_append.mpr ⟨inhabited, ?_⟩⟩
    · rw [rowWords_append, rowWords_singleton (spaces _ ++ _), words_behind_spaces, alone]
    · rw [List.forall_mem_singleton, words_behind_spaces, alone]
      exact List.cons_ne_nil _ _

/-- Points behind the rows of a list go on in rows within the bound, each as a word of its own. -/
theorem Buffer.Rows.eachPoint (written : Buffer.Rows bound start buffer rows last)
    (wide : layout.wrapColumn ≤ bound)
    (fits : ∀ point ∈ points,
      start.indent + (" " ++ Number.coordinatePair point.1 point.2).length ≤ bound)
    (inhabited : ∀ row ∈ rows ++ [last], Path.words row.toList ≠ []) :
    ∃ rows' last', Buffer.Rows bound start
        ((points.map fun (x, y) => Piece.wrapping (" " ++ Number.coordinatePair x y)).foldl
          (Buffer.wrote layout) buffer) rows' last' ∧
      rowWords (rows' ++ [last']) = rowWords (rows ++ [last]) ++
        points.map (fun (x, y) => (Number.coordinatePair x y).toList) ∧
      ∀ row ∈ rows' ++ [last'], Path.words row.toList ≠ [] := by
  induction points generalizing buffer rows last with
  | nil => exact ⟨rows, last, written, (List.append_nil _).symm, inhabited⟩
  | cons point others ih =>
      obtain ⟨here, later⟩ := List.forall_mem_cons.mp fits
      obtain ⟨rows', last', next, words, held⟩ := written.point wide point.1 point.2 here inhabited
      obtain ⟨rows'', last'', final, allWords, allHeld⟩ := ih next later held
      refine ⟨rows'', last'', final, ?_, allHeld⟩
      rw [allWords, words, List.append_assoc]
      rfl

/-- Rows that hold a list of points end in one line break, as none of them is empty. -/
theorem Shape.PointRows.ends_in_line_break (pointRows : PointRows word points bound rows) :
    ∃ body, String.join (rows.map (· ++ "\n")) = body ++ "\n" ∧
      body.toList.getLast? ≠ some '\n' := by
  have some : rows ≠ [] := by
    intro none
    have words := pointRows.words
    rw [none] at words
    cases words
  obtain ⟨others, last, rfl⟩ := (List.eq_nil_or_concat' rows).resolve_left some
  refine ⟨_, join_rows_concat others last, ?_⟩
  have member : last ∈ others ++ [last] := List.mem_append_right _ (List.mem_singleton_self last)
  have inhabited : last.toList ≠ [] := by
    intro empty
    have held := pointRows.inhabited last member
    rw [empty] at held
    exact held rfl
  rw [String.toList_append, List.getLast?_append_of_ne_nil _ inhabited]
  exact fun newline => pointRows.single last member (List.mem_of_getLast? newline)

theorem Shape.length_word_le (word : String) (points : List (Float × Float)) :
    word.length ≤ longestPiece word points :=
  List.le_max_of_le List.mem_cons_self (Nat.le_refl _)

theorem Shape.length_point_le {point : Float × Float} (member : point ∈ points) (word : String) :
    (" " ++ Number.coordinatePair point.1 point.2).length ≤ longestPiece word points :=
  List.le_max_of_le (List.mem_cons_of_mem _ (List.mem_map_of_mem member)) (Nat.le_refl _)

/-- A list of points that is begun at the start of a line is written in whole rows. -/
theorem Shape.pointRows (start : Buffer) (layout : Layout) (column : start.column = 0)
    (isWord : Path.IsWord word.toList) (points : List (Float × Float)) :
    ∃ rows, PointRows word points
        (max layout.wrapColumn (start.indent + longestPiece word points)) rows ∧
      (pointList word points).foldl (Buffer.wrote layout) start =
        { start with text := start.text ++ String.join (rows.map (· ++ "\n")) } := by
  have single : SingleLine word := by
    intro newline
    exact absurd (isWord.solid '\n' newline) (by decide)
  have wordLength := length_word_le word points
  have begun := Buffer.Rows.first column single
    (show start.indent + word.length ≤
      max layout.wrapColumn (start.indent + longestPiece word points) by omega)
  have words : Path.words (spaces start.indent ++ word).toList = [word.toList] := by
    rw [words_behind_spaces, Path.words_word isWord]
  have held : ∀ row ∈ [] ++ [spaces start.indent ++ word], Path.words row.toList ≠ [] := by
    rw [List.nil_append, List.forall_mem_singleton, words]
    exact List.cons_ne_nil _ _
  obtain ⟨rows, last, written, allWords, inhabited⟩ := begun.eachPoint
    (le_max_left layout.wrapColumn _)
    (fun point (member : point ∈ points) => by
      have := length_point_le member word
      omega) held
  have ended := written.grows.trans (written.filled.extended_grows "\n")
  refine ⟨rows ++ [last], ⟨?_, inhabited, written.single, written.narrow⟩, ?_⟩
  · rw [allWords, List.nil_append, rowWords_singleton, words]
    rfl
  · rw [pointList, List.foldl_append, List.foldl_cons, join_rows_concat]
    exact ended.eq_of_column ((Buffer.column_line _ "").trans column.symm)

end Points

section Calls

variable {tools : Tools} {drawing : Drawing} {shape : Shape} {word : String}
  {points : List (Float × Float)}

/-- A shape with points is one of three instructions. -/
theorem Shape.pieces_of_points (listed : shape.points? = some (word, points)) :
    shape.pieces = pointList word points ∧ Path.IsWord word.toList := by
  cases shape with
  | bezier given | polygon given | polyline given =>
      cases listed
      exact ⟨rfl, by decide, List.forall_iff_forall_mem.mp (by decide), by decide⟩
  | _ => cases listed

/-- A list of points is written whole, whatever the points are and wherever lines wrap.  At the
start of a line, and where nothing limits the program, the call is done, and the text that it appends
consists of the word and of one pair of coordinates for each point.  It stands in rows that hold
whole words and are no wider than the wrap column or the longest piece behind its indentation, and
it ends in exactly one line break. -/
theorem point_lists_wrap_in_bounds (listed : shape.points? = some (word, points))
    (usable : drawing.poisoned = false) (unlimited : drawing.layout.limit = none)
    (column : drawing.buffer.column = 0) :
    ∃ rows added, Shape.PointRows word points (max drawing.layout.wrapColumn
          (drawing.buffer.indent + Shape.longestPiece word points)) rows ∧
      added = String.join (rows.map (· ++ "\n")) ∧
      drawing.call tools (.instruct (.shape shape)) = ({ drawing with
        buffer := { drawing.buffer with text := drawing.program ++ added } }, .done) ∧
      Path.words added.toList = Shape.pointWords word points ∧
      ∃ body, added = body ++ "\n" ∧ body.toList.getLast? ≠ some '\n' := by
  obtain ⟨pieces, isWord⟩ := Shape.pieces_of_points listed
  obtain ⟨rows, pointRows, written⟩ :=
    Shape.pointRows drawing.buffer drawing.layout column isWord points
  have room := Layout.hasRoom_of_unlimited unlimited
  have called : drawing.call tools (.instruct (.shape shape)) = ({ drawing with
      buffer := (Shape.pointList word points).foldl (Buffer.wrote drawing.layout) drawing.buffer },
      .done) := by
    rw [Drawing.call, Instruction.plan, Shape.plan, pieces]
    exact Plan.Writes.write.run_ok (Shape.short_pointList word points) usable (room _)
  refine ⟨rows, _, pointRows, rfl, called.trans ?_, ?_, ?_⟩
  · rw [written]
    rfl
  · rw [words_join_rows, pointRows.words]
  · exact pointRows.ends_in_line_break

/-- Three points inside a scope, with a wrap column that the first point alone runs past. -/
theorem point_lists_wrap_in_bounds_in_scope :
    let drawing := (Drawing.start { wrapColumn := 12 } ⟨64, 64, .empty⟩).calls {}
      [.instruct (.bracket .openScope)]
    let points : List (Float × Float) := [(-1.5e100, 2.25), (1, 2), (1 / 0, -3)]
    let after := (drawing.call {} (.instruct (.shape (.polygon points)))).1
    after.program = drawing.program ++ " polygon\n  -1.5e+100,2.25\n  1,2 inf,-3\n" ∧
      ∃ rows added, Shape.PointRows "polygon" points 16 rows ∧
        after.program = drawing.program ++ added ∧ added = String.join (rows.map (· ++ "\n")) := by
  intro drawing points after
  obtain ⟨rows, added, pointRows, joined, called, -⟩ :=
    @point_lists_wrap_in_bounds {} drawing (.polygon points) "polygon" points rfl
      (by decide +kernel) rfl (by decide +kernel)
  have bound : max drawing.layout.wrapColumn
      (drawing.buffer.indent + Shape.longestPiece "polygon" points) = 16 := by decide +kernel
  rw [bound] at pointRows
  exact ⟨by decide +kernel, rows, added, pointRows,
    congrArg (fun ended => ended.1.program) called, joined⟩

end Calls

end Quill
