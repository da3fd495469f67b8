import Quill.Proofs.Base64Text
import Quill.Proofs.Bracketless
import Quill.Proofs.PathWords

/-!
# Pictures inside a program

A picture is put into a program as base64 between quotes.  Its first line names the kind of data,
and the lines behind it are as wide as the settings say, but for the last.  Nothing is added
inside, so a reader of the program finds there the bytes that the encoder gave.
-/

namespace Quill

open Text.Base64

def Quoteless (text : String) : Prop :=
  '\'' ∉ text.toList

instance (text : String) : Decidable (Quoteless text) :=
  inferInstanceAs (Decidable ('\'' ∉ text.toList))

/-- The lines between the quotes of a picture: those of the encoded bytes, or an empty line if there
are no bytes. -/
def Text.Base64.rows (bytes : List UInt8) (width : Nat) : List String :=
  if bytes = [] then [""] else lines bytes width

/-- Lines that hold bytes in base64 and are of one width but for the last.  A width of zero acts as
one. -/
structure Text.Base64.Payload (bytes : List UInt8) (width : Nat) (rows : List String) : Prop where
  none : bytes = [] → rows = [""]
  full : bytes ≠ [] → ∀ row ∈ rows.dropLast, row.length = max 1 width
  last : bytes ≠ [] →
    ∃ row, rows.getLast? = some row ∧ 0 < row.length ∧ row.length ≤ max 1 width
  spaceless : ∀ row ∈ rows, ' ' ∉ row.toList
  quoteless : ∀ row ∈ rows, Quoteless row
  single : ∀ row ∈ rows, SingleLine row
  spells : Spells bytes (rows.flatMap String.toList)
  decodes : decode (rows.flatMap String.toList) = some bytes

/-- What a reader finds in the first quotes of a text: the bytes that stand in base64 behind the
first line there. -/
def Text.Base64.quoted? (characters : List Char) : Option (List UInt8) :=
  let quoted := (characters.dropWhile (· != '\'')).tail.takeWhile (· != '\'')
  decode ((quoted.dropWhile (· != '\n')).filter (· != '\n'))

section Rows

variable {bytes : List UInt8} {values : List Nat} {zeros fill : Nat} {characters : List Char}

theorem Text.Base64.Spelling.quoteless (spelling : Spelling bytes values zeros fill characters) :
    '\'' ∉ characters := by
  have symbols : ∀ value < 64, alphabet.toList.getD value '=' ≠ '\'' := by decide +kernel
  rw [spelling.symbols, List.mem_append, not_or]
  constructor
  · intro quote
    obtain ⟨value, member, same⟩ := List.mem_map.mp quote
    exact symbols value (spelling.small value member) same
  · intro quote
    exact absurd (List.eq_of_mem_replicate quote) (by decide)

theorem Text.Base64.encode_eq_nil : encode bytes = [] ↔ bytes = [] := by
  fun_cases encode bytes <;> simp

theorem flatMap_map_ofList (runs : List (List Char)) :
    (runs.map String.ofList).flatMap String.toList = runs.flatten := by
  simp only [List.flatMap_map, String.toList_ofList, List.flatMap_id']

theorem Text.Base64.flatMap_rows (bytes : List UInt8) (width : Nat) :
    (rows bytes width).flatMap String.toList = encode bytes := by
  unfold rows
  split
  · rename_i empty
    rw [empty]
    rfl
  · rw [lines, flatMap_map_ofList, flatten_runs]

theorem Text.Base64.lines_ne_nil (inhabited : bytes ≠ []) (width : Nat) :
    lines bytes width ≠ [] := by
  intro empty
  have flat := flatMap_rows bytes width
  rw [rows, if_neg inhabited, empty] at flat
  exact inhabited (encode_eq_nil.mp flat.symm)

theorem Text.Base64.rows_payload (bytes : List UInt8) (width : Nat) :
    Payload bytes width (rows bytes width) := by
  have broad : width - 1 + 1 = max 1 width := by omega
  obtain ⟨values, zeros, fill, spelling⟩ := encode_spells bytes
  have inside : ∀ {row character}, row ∈ rows bytes width → character ∈ row.toList →
      character ∈ encode bytes := by
    intro row character member within
    rw [← flatMap_rows bytes width]
    exact List.mem_flatMap.mpr ⟨row, member, within⟩
  constructor
  · exact fun empty => if_pos empty
  · intro inhabited row member
    rw [rows, if_neg inhabited, lines, ← List.map_dropLast] at member
    obtain ⟨run, among, rfl⟩ := List.mem_map.mp member
    rw [String.length_ofList, length_of_mem_dropLast_runs _ _ run among, broad]
  · intro inhabited
    have some := lines_ne_nil inhabited width
    refine ⟨(lines bytes width).getLast some, ?_, ?_⟩
    · rw [rows, if_neg inhabited, List.getLast?_eq_getLast_of_ne_nil some]
    · obtain ⟨run, among, last⟩ := List.mem_map.mp (List.getLast_mem some)
      rw [← last, String.length_ofList, ← broad]
      exact length_of_mem_runs _ _ run among
  · exact fun row member space => (encode_apart bytes ' ' (inside member space)).1 rfl
  · exact fun row member quote => spelling.quoteless (inside member quote)
  · exact fun row member newline => (encode_apart bytes '\n' (inside member newline)).2 rfl
  · rw [flatMap_rows]
    exact encode_spells bytes
  · rw [flatMap_rows]
    exact decode_encode bytes

theorem intercalate_newline {rows : List String} (inhabited : rows ≠ []) :
    "\n".intercalate rows ++ "\n" = String.join (rows.map (· ++ "\n")) := by
  induction rows with
  | nil => exact (inhabited rfl).elim
  | cons first rest ih =>
      cases rest with
      | nil => simp
      | cons second rest =>
          have others := ih (List.cons_ne_nil second rest)
          rw [String.intercalate_cons_cons, String.append_assoc, others, ← String.join_cons]
          rfl

theorem Text.Base64.intercalate_lines (bytes : List UInt8) (width : Nat) :
    "\n".intercalate (lines bytes width) ++ "\n" =
      String.join ((rows bytes width).map (· ++ "\n")) := by
  unfold rows
  split
  · rename_i empty
    rw [empty, lines, encode, runs]
    rfl
  · rename_i inhabited
    exact intercalate_newline (lines_ne_nil inhabited width)

end Rows

section Reading

variable {bytes : List UInt8} {rows : List String} {width : Nat} {placement : Placement}
  {mime : String}

theorem filter_join_lines (single : ∀ row ∈ rows, SingleLine row) :
    (String.join (rows.map (· ++ "\n"))).toList.filter (· != '\n') =
      rows.flatMap String.toList := by
  induction rows with
  | nil => rfl
  | cons first others ih =>
      obtain ⟨own, rest⟩ := List.forall_mem_cons.mp single
      have kept : first.toList.filter (· != '\n') = first.toList := by
        refine List.filter_eq_self.mpr fun character member => ?_
        exact bne_iff_ne.mpr (ne_of_mem_of_not_mem member own)
      have newline : "\n".toList.filter (· != '\n') = [] := by decide
      rw [List.map_cons, String.join_cons, String.toList_append, String.toList_append,
        List.filter_append, List.filter_append, kept, newline, ih rest, List.append_nil,
        List.flatMap_cons]

theorem quoteless_append {first second : String} :
    Quoteless (first ++ second) ↔ Quoteless first ∧ Quoteless second := by
  simp [Quoteless]

theorem quoteless_join_lines (quoteless : ∀ row ∈ rows, Quoteless row) :
    Quoteless (String.join (rows.map (· ++ "\n"))) := by
  induction rows with
  | nil => decide
  | cons first others ih =>
      obtain ⟨own, rest⟩ := List.forall_mem_cons.mp quoteless
      rw [List.map_cons, String.join_cons, quoteless_append, quoteless_append]
      exact ⟨⟨own, by decide⟩, ih rest⟩

theorem dropWhile_up_to {mark : Char} {front : List Char} (apart : mark ∉ front)
    (rest : List Char) : (front ++ mark :: rest).dropWhile (· != mark) = mark :: rest := by
  have before : ∀ character ∈ front, (character != mark) = true :=
    fun character member => bne_iff_ne.mpr (ne_of_mem_of_not_mem member apart)
  rw [List.dropWhile_append_of_pos before]
  simp

/-- A reader finds the bytes of a picture behind text that has no quotes. -/
theorem Text.Base64.Payload.quoted? (payload : Payload bytes width rows) {front label : String}
    (unquoted : Quoteless front) (quoteless : Quoteless label) (single : SingleLine label)
    (rest : List Char) :
    Base64.quoted? (front.toList ++ '\'' :: (label.toList ++ '\n' ::
      (String.join (rows.map (· ++ "\n"))).toList ++ '\'' :: rest)) = some bytes := by
  have body := quoteless_join_lines payload.quoteless
  have kept := filter_join_lines payload.single
  have inside : '\'' ∉ label.toList ++ '\n' :: (String.join (rows.map (· ++ "\n"))).toList := by
    rw [List.mem_append, List.mem_cons, not_or, not_or]
    exact ⟨quoteless, by decide, body⟩
  have newline : ('\n' != '\n') = false := rfl
  rw [Base64.quoted?, dropWhile_up_to unquoted, List.tail_cons, takeWhile_ne_append inside rfl,
    dropWhile_up_to single, List.filter_cons, newline, kept]
  exact payload.decodes

/-- What stands in front of the quotes of a picture. -/
def Placement.front (placement : Placement) : String :=
  "image " ++ placement.operator.token ++ " " ++
    Number.coordinatePair placement.x placement.y ++ " " ++
    Number.coordinatePair placement.width placement.height ++ " "

theorem Placement.firstLine_eq (placement : Placement) (mime : String) :
    placement.firstLine mime = placement.front ++ "'" ++ ("data:" ++ mime ++ ";base64,") := by
  have opening : " 'data:" = " " ++ ("'" ++ "data:") := rfl
  unfold firstLine front
  rw [opening]
  simp only [String.append_assoc]

theorem quoteless_coordinatePair (x y : Float) : Quoteless (Number.coordinatePair x y) := by
  intro quote
  rcases (Path.coordinatePair_isGroup x y).inside '\'' quote with printed | comma
  · exact (Path.isPrinted_apart printed).2.2 rfl
  · exact absurd comma (by decide)

theorem Placement.quoteless_front (placement : Placement) : Quoteless placement.front := by
  have token : Quoteless placement.operator.token := by
    cases placement.operator <;> decide
  have literals : Quoteless "image " ∧ Quoteless " " := by decide
  unfold front
  simp only [quoteless_append, token, quoteless_coordinatePair, literals, and_self]

theorem quoteless_spaces (count : Nat) : Quoteless (spaces count) := by
  rw [Quoteless, spaces, String.toList_ofList]
  intro quote
  exact absurd (List.eq_of_mem_replicate quote) (by decide)

theorem Placement.text_eq_rows (placement : Placement) (width : Nat) (encoded : EncodedPicture) :
    placement.text width encoded ++ "\n" = placement.firstLine encoded.mime ++ "\n" ++
      String.join ((Text.Base64.rows encoded.bytes width).map (· ++ "\n")) ++ "'\n" := by
  have closing : "'" ++ "\n" = "'\n" := rfl
  rw [text_eq_lines, intercalate_lines, closing]
  simp only [String.append_assoc]

/-- Whole lines that are written from the start of a line lead to the start of another. -/
theorem Buffer.extended_line_start {buffer : Buffer} (start : buffer.column = 0) (text : String) :
    buffer.extended (text ++ "\n") =
      { buffer with text := buffer.text ++ spaces buffer.indent ++ (text ++ "\n") } := by
  have ended := buffer.column_line text
  rw [extended, start] at ended ⊢
  exact congrArg (fun column => Buffer.mk _ column buffer.indent) ended

end Reading

section Calls

variable {tools : Tools} {drawing : Drawing} {placement : Placement} {picture : Picture}
  {encoded : EncodedPicture}

/-- A picture that is put into a program at the start of a line, where nothing limits the
program, is written whole: a first line that names the kind of its data, lines of one width that
hold the data in base64, and a closing quote.  A reader finds the encoder's bytes there. -/
theorem inline_pictures_hold_encoded_bytes (usable : drawing.poisoned = false)
    (unlimited : drawing.layout.limit = none) (start : drawing.buffer.column = 0)
    (extent : placement.hasExtent = true) (answer : tools.encode picture = .ok encoded)
    (quoteless : Quoteless encoded.mime) (single : SingleLine encoded.mime) :
    ∃ rows added, Payload encoded.bytes drawing.settings.base64Width rows ∧
      added = spaces drawing.buffer.indent ++ placement.firstLine encoded.mime ++ "\n" ++
        String.join (rows.map (· ++ "\n")) ++ "'\n" ∧
      drawing.call tools (.composite placement picture) = ({ drawing with
        buffer := { drawing.buffer with text := drawing.program ++ added } }, .done) ∧
      quoted? added.toList = some encoded.bytes := by
  have payload := rows_payload encoded.bytes drawing.settings.base64Width
  refine ⟨_, _, payload, rfl, ?_, ?_⟩
  · have call : drawing.call tools (.composite placement picture) =
        (Plan.line (placement.text drawing.settings.base64Width encoded)).run drawing := by
      rw [Drawing.call, Drawing.composite, extent, usable, answer]
      rfl
    rw [call, Plan.run_line unlimited usable, Buffer.extended_line_start start,
      placement.text_eq_rows]
    simp only [Change.apply, Drawing.program, String.append_assoc]
  · have front : Quoteless (spaces drawing.buffer.indent ++ placement.front) :=
      quoteless_append.mpr ⟨quoteless_spaces _, placement.quoteless_front⟩
    have literals : (Quoteless "data:" ∧ Quoteless ";base64,") ∧
        SingleLine "data:" ∧ SingleLine ";base64," := by decide
    have label : Quoteless ("data:" ++ encoded.mime ++ ";base64,") := by
      simp only [quoteless_append, quoteless, literals, and_self]
    have line : SingleLine ("data:" ++ encoded.mime ++ ";base64,") := by
      simp only [singleLine_append, single, literals, and_self]
    have read := payload.quoted? front label line ['\n']
    rw [placement.firstLine_eq]
    simpa [String.toList_append, List.append_assoc] using read

/-- Five bytes in lines of three characters, inside a scope. -/
theorem inline_pictures_hold_encoded_bytes_in_scope :
    let settings : Settings := { base64Width := 3 }
    let tools : Tools := { encode := fun _ => .ok ⟨"image/x", [251, 255, 0, 1, 2]⟩ }
    let drawing := (Drawing.start settings ⟨64, 64, .empty⟩).calls tools
      [.instruct (.bracket .openScope)]
    let placement : Placement := ⟨.over, 1, 2, 3, 4⟩
    let pixel : Picture := ⟨.gray, false, 1, 1, [0]⟩
    let after := (drawing.call tools (.composite placement pixel)).1
    after.program = drawing.program ++
        " image over 1,2 3,4 'data:image/x;base64,\n+/8\nAAQ\nI=\n'\n" ∧
      ∃ added, after.program = drawing.program ++ added ∧
        quoted? added.toList = some [251, 255, 0, 1, 2] := by
  intro settings tools drawing placement pixel after
  obtain ⟨rows, added, -, -, called, read⟩ :=
    @inline_pictures_hold_encoded_bytes tools drawing placement pixel _
      (by decide +kernel) rfl (by decide +kernel) (by decide +kernel) rfl
      (by decide) (by decide)
  exact ⟨by decide +kernel, added, congrArg (fun ended => ended.1.program) called, read⟩

end Calls

end Quill
