import Quill.Proofs.BracketLines
import Quill.Proofs.Leaks
import Quill.Proofs.PaintTokens
import Quill.Proofs.Spacing

/-!
# What is not a bracket says nothing about brackets

Whatever a plain call writes, no line of it is read as the opening or closing of a bracket, as long
as the texts that it is given have no line breaks.  Every line starts with the word of an
instruction, with path data or with the data of a picture.
-/

namespace Quill

def SingleLine (text : String) : Prop :=
  '\n' ∉ text.toList

instance (text : String) : Decidable (SingleLine text) :=
  inferInstanceAs (Decidable (_ ∉ _))

/-- The texts that a call writes as they are given. -/
def Call.texts : Call → List String
  | .instruct (.setting (.paintPattern _ url)) => [url]
  | .instruct (.setting (.clipPath id)) => [id]
  | .instruct (.setting (.label _ text)) => [text]
  | .instruct (.shape (.caption _ _ text)) => [text]
  | .instruct (.bracket (.openPattern id _ _ _ _)) => [id]
  | .instruct (.bracket (.openClipPath id)) => [id]
  | .instruct (.comment text) => [text]
  | _ => []

/-- A request whose texts have no line breaks, nor has the media type of a picture. -/
structure Request.SingleLine (request : Request) : Prop where
  texts : ∀ text ∈ request.call.texts, Quill.SingleLine text
  media : ∀ placement picture encoded, request.call = .composite placement picture →
    request.tools.encode picture = .ok encoded → Quill.SingleLine encoded.mime

section Texts

variable {first second : String}

@[simp]
theorem singleLine_append :
    SingleLine (first ++ second) ↔ SingleLine first ∧ SingleLine second := by
  simp [SingleLine]

theorem singleLine_intercalate {separator : String} {groups : List String}
    (separates : SingleLine separator) (all : ∀ group ∈ groups, SingleLine group) :
    SingleLine (separator.intercalate groups) := by
  induction groups with
  | nil => exact List.not_mem_nil
  | cons first rest ih =>
      obtain ⟨here, others⟩ := List.forall_mem_cons.mp all
      cases rest with
      | nil => simpa using here
      | cons second rest =>
          rw [String.intercalate_cons_cons, singleLine_append, singleLine_append]
          exact ⟨⟨here, separates⟩, ih others⟩

theorem singleLine_significant (count : Nat) (value : Float) :
    SingleLine (Number.significant count value) := by
  intro newline
  have printed := (Number.significant_written count value).printed _ newline
  cases printed

theorem singleLine_coordinate (value : Float) : SingleLine (Number.coordinate value) :=
  singleLine_significant 4 value

theorem singleLine_coordinatePair (x y : Float) : SingleLine (Number.coordinatePair x y) := by
  simp only [Number.coordinatePair, singleLine_append, singleLine_coordinate, true_and, and_true]
  decide

theorem singleLine_nat (number : Nat) : SingleLine (toString number) := by
  intro newline
  rw [Nat.toString_eq_repr, Nat.repr, String.toList_ofList] at newline
  have digit := Nat.isDigit_of_mem_toDigits (by decide) (by decide) newline
  cases digit

theorem singleLine_int (number : Int) : SingleLine (toString number) := by
  cases number with
  | ofNat number => exact singleLine_nat number
  | negSucc number =>
      have negative : toString (Int.negSucc number) = "-" ++ toString (number + 1) := rfl
      rw [negative, singleLine_append]
      exact ⟨by decide, singleLine_nat _⟩

theorem singleLine_literal (single : SingleLine first) :
    SingleLine (Text.Quoted.literal first) := by
  have encoded : ∀ characters : List Char, '\n' ∉ characters →
      '\n' ∉ Text.Quoted.encode characters := by
    intro characters none
    induction characters with
    | nil => exact List.not_mem_nil
    | cons character rest ih =>
        simp only [List.mem_cons, not_or] at none
        rw [Text.Quoted.encode]
        split <;> simp [none.1, ih none.2]
  rw [Text.Quoted.literal, singleLine_append, singleLine_append]
  refine ⟨⟨by decide, ?_⟩, by decide⟩
  rw [SingleLine, String.toList_ofList]
  exact encoded _ single

end Texts

/-- A word at the start of a line that neither opens nor closes a bracket. -/
def PlainWord (word : String) : Prop :=
  Unbracketed word.toList ∧ SingleLine word

instance (word : String) : Decidable (PlainWord word) :=
  inferInstanceAs (Decidable (_ ∧ _))

/-- An edit that is written in one line, which opens and closes nothing. -/
def Edit.Bracketless (edit : Edit) : Prop :=
  ∀ spelling, edit.spelling = some spelling → PlainWord edit.word ∧ SingleLine spelling

def Plan.Bracketless : Plan → Prop
  | .write pieces _ => ∀ piece ∈ pieces, Quill.Bracketless piece.text.toList
  | .close _ _ => False
  | .refuse _ | .keep | .adjust _ => True

section Words

theorem Side.plainWord (side : Side) : PlainWord side.word := by
  cases side <;> decide

theorem Side.plainWord_opacity (side : Side) : PlainWord (side.word ++ "-opacity") := by
  cases side <;> decide

theorem Measure.plainWord (index : Measure) : PlainWord index.word := by
  cases index <;> decide

theorem Label.plainWord (index : Label) : PlainWord index.word := by
  cases index <;> decide

theorem Accent.plainWord (accent : Accent) : PlainWord accent.word := by
  cases accent <;> decide

theorem Smoothing.plainWord (smoothing : Smoothing) : PlainWord smoothing.word := by
  cases smoothing <;> decide

theorem singleLine_quotedColor (color : Rgba) : SingleLine (quotedColor color) :=
  newline_notMem_quotedColor color

theorem singleLine_reference {id : String} (single : SingleLine id) :
    SingleLine ("url(#" ++ id ++ ")") := by
  rw [singleLine_append, singleLine_append]
  exact ⟨⟨by decide, single⟩, by decide⟩

theorem singleLine_dashText (lengths : List Float) : SingleLine (dashText lengths) := by
  rw [dashText]
  split
  · decide
  · refine singleLine_intercalate (by decide) ?_
    simp [singleLine_coordinate]

end Words

section Plans

variable {tools : Tools} {drawing : Drawing} {edit : Edit} {text word : String}

theorem Edit.Bracketless.of_word (word : PlainWord edit.word)
    (single : ∀ spelling, edit.spelling = some spelling → SingleLine spelling) :
    edit.Bracketless :=
  fun spelling spelled => ⟨word, single spelling spelled⟩

theorem PlainWord.bracketless (plain : PlainWord word) (starts : word.toList <+: text.toList)
    (single : SingleLine text) : Bracketless (text ++ "\n").toList := by
  obtain ⟨more, equal⟩ := starts
  have unbracketed : Unbracketed text.toList := equal ▸ plain.1.append more
  rw [String.toList_append]
  exact (unbracketed.bracketless single).append bracketless_newline

theorem PlainWord.plan_bracketless {change : Change} (plain : PlainWord word)
    (starts : word.toList <+: text.toList) (single : SingleLine text) :
    (Plan.line text change).Bracketless :=
  List.forall_mem_singleton.mpr (plain.bracketless starts single)

theorem PlainWord.plan_operand {operand : String} {change : Change} (plain : PlainWord word)
    (single : SingleLine operand) : (Plan.line (word ++ operand) change).Bracketless :=
  plain.plan_bracketless (starts_append (List.prefix_refl _) operand)
    (singleLine_append.mpr ⟨plain.2, single⟩)

theorem Edit.Bracketless.plan (bracketless : edit.Bracketless) :
    (edit.plan drawing).Bracketless := by
  unfold Edit.plan Drawing.updateSpelled
  split
  · trivial
  cases spelled : edit.spelling with
  | none => trivial
  | some spelling =>
      obtain ⟨word, operand⟩ := bracketless spelling spelled
      refine word.plan_bracketless ?_ ?_
      · exact starts_append (starts_append (List.prefix_refl _) " ") spelling
      · rw [singleLine_append, singleLine_append]
        exact ⟨⟨word.2, by decide⟩, operand⟩

/-- What a setting writes is one line, if its texts are. -/
theorem Setting.edit?_bracketless {setting : Setting}
    (edits : setting.edit? tools drawing = .ok edit)
    (single : ∀ text ∈ (Call.instruct (.setting setting)).texts, SingleLine text) :
    edit.Bracketless := by
  cases setting with
  | paintName side name =>
      obtain ⟨color, -, rfl⟩ := exists_of_map_ok edits
      rintro spelling ⟨⟩
      exact ⟨side.plainWord, singleLine_quotedColor _⟩
  | accentName accent name =>
      obtain ⟨color, -, rfl⟩ := exists_of_map_ok edits
      rintro spelling ⟨⟩
      exact ⟨accent.plainWord, singleLine_quotedColor _⟩
  | paintPattern side url =>
      obtain ⟨id, found, rfl⟩ := exists_of_map_ok edits
      have named : SingleLine id := by
        have given : SingleLine url := single url List.mem_cons_self
        rw [Drawing.patternReference_ok found, singleLine_append] at given
        exact given.2
      rintro spelling ⟨⟩
      exact ⟨side.plainWord, singleLine_reference named⟩
  | clipPath id =>
      obtain ⟨name, found, rfl⟩ := exists_of_map_ok edits
      have named : SingleLine name := by
        rw [(Drawing.clipReference_ok found).1]
        exact single id List.mem_cons_self
      rintro spelling ⟨⟩
      exact ⟨(by decide : PlainWord "clip-path"), singleLine_reference named⟩
  | label index text =>
      obtain ⟨name, required, rfl⟩ := exists_of_map_ok edits
      have named : SingleLine name := by
        rw [Drawing.require_ok required]
        exact single text List.mem_cons_self
      rintro spelling ⟨⟩
      exact ⟨index.plainWord, singleLine_literal named⟩
  | paint side color =>
      cases edits
      rintro spelling ⟨⟩
      exact ⟨side.plainWord, singleLine_quotedColor _⟩
  | paintOpacity side value =>
      cases edits
      rintro spelling ⟨⟩
      exact ⟨side.plainWord_opacity, singleLine_coordinate _⟩
  | measure index value =>
      cases edits
      rintro spelling ⟨⟩
      exact ⟨index.plainWord, singleLine_coordinate _⟩
  | opacity value =>
      cases edits
      rintro spelling ⟨⟩
      exact ⟨(by decide : PlainWord "opacity"), singleLine_coordinate _⟩
  | dashes lengths =>
      cases edits
      rintro spelling ⟨⟩
      exact ⟨(by decide : PlainWord "stroke-dasharray"), singleLine_dashText _⟩
  | miterLimit limit =>
      cases edits
      rintro spelling ⟨⟩
      exact ⟨(by decide : PlainWord "stroke-miterlimit"), singleLine_nat _⟩
  | fontWeight weight =>
      cases edits
      rintro spelling ⟨⟩
      exact ⟨(by decide : PlainWord "font-weight"), singleLine_nat _⟩
  | antialias smoothing enabled =>
      cases edits
      rintro spelling ⟨⟩
      exact ⟨smoothing.plainWord, by cases enabled <;> decide⟩
  | bounds rectangle =>
      cases edits
      rintro spelling ⟨⟩
  | gravity value | alignment value | direction value | fillRule value | lineCap value
  | lineJoin value | clipRule value | clipUnits value | fontStyle value | fontStretch value
  | decoration value =>
      cases edits
      refine .of_word (by dsimp only [Context.clipUnitsEdit]; decide) ?_
      cases value <;> rintro spelling ⟨⟩ <;> decide

theorem Motion.plan_bracketless (motion : Motion) : motion.plan.Bracketless := by
  rw [plan]
  split
  · trivial
  cases motion with
  | affine map =>
      have word : PlainWord "affine " := by decide
      refine word.plan_operand (singleLine_intercalate (by decide) fun group member => ?_)
      obtain ⟨value, -, rfl⟩ := List.mem_map.mp member
      exact singleLine_significant 6 value
  | rotate degrees =>
      have word : PlainWord "rotate " := by decide
      exact word.plan_operand (singleLine_coordinate degrees)
  | scale x y =>
      have word : PlainWord "scale " := by decide
      exact word.plan_operand (singleLine_coordinatePair x y)
  | skewX degrees =>
      have word : PlainWord "skewX " := by decide
      exact word.plan_operand (singleLine_coordinate degrees)
  | skewY degrees =>
      have word : PlainWord "skewY " := by decide
      exact word.plan_operand (singleLine_coordinate degrees)
  | translate x y =>
      have word : PlainWord "translate " := by decide
      exact word.plan_operand (singleLine_coordinatePair x y)

end Plans

section Shapes

variable {word : String}

theorem unbracketed_leading {first : Char} (leads : Number.isLeading first) (rest : List Char) :
    Unbracketed (first :: rest) := by
  have letter : first ≠ 'p' := by
    rintro rfl
    cases leads
  exact ⟨solid_of_isLeading leads rest, diverges_cons letter, diverges_cons letter⟩

theorem bracketless_point (x y : Float) :
    Bracketless (" " ++ Number.coordinatePair x y).toList := by
  obtain ⟨first, rest, equal, leads⟩ := (Path.coordinatePair_isGroup x y).leading
  have space : IsSpacing " ".toList := isSpacing_spaces 1
  have unbracketed : Unbracketed (Number.coordinatePair x y).toList := by
    rw [equal]
    exact unbracketed_leading leads rest
  rw [String.toList_append]
  exact (unbracketed.bracketless (singleLine_coordinatePair x y)).behind space

theorem Shape.bracketless_pointList (plain : PlainWord word) (points : List (Float × Float)) :
    (Plan.write (pointList word points) .nothing).Bracketless := by
  intro piece member
  simp only [pointList, List.mem_cons, List.cons_append, List.mem_append, List.mem_map,
    List.not_mem_nil, or_false] at member
  rcases member with rfl | ⟨point, -, rfl⟩ | rfl
  · exact plain.1.bracketless plain.2
  · exact bracketless_point point.1 point.2
  · exact bracketless_newline

theorem Shape.bracketless_pairLine (plain : PlainWord word) (pairs : List (Float × Float)) :
    (Plan.write (pairLine word pairs) .nothing).Bracketless := by
  refine plain.plan_bracketless (prefix_intercalate " " word _) ?_
  refine singleLine_intercalate (by decide) (List.forall_mem_cons.mpr ⟨plain.2, ?_⟩)
  intro group member
  obtain ⟨pair, -, rfl⟩ := List.mem_map.mp member
  exact singleLine_coordinatePair pair.1 pair.2

theorem Shape.bracketless_repaintLine (plain : PlainWord word) (x y : Float) (method : Repaint) :
    (Plan.write (repaintLine word x y method) .nothing).Bracketless := by
  have token : SingleLine method.token := by cases method <;> decide
  refine plain.plan_bracketless (by simp) ?_
  simp only [singleLine_append, plain.2, singleLine_coordinatePair, token, and_true, true_and]
  decide

theorem Shape.plan_bracketless (shape : Shape)
    (single : ∀ text ∈ (Call.instruct (.shape shape)).texts, SingleLine text) :
    shape.plan.Bracketless := by
  cases shape with
  | bezier points | polygon points | polyline points =>
      exact bracketless_pointList (by decide) points
  | caption x y text =>
      have word : PlainWord "text " := by decide
      refine word.plan_bracketless (by simp) ?_
      have literal := singleLine_literal (single text List.mem_cons_self)
      have space : SingleLine " " := by decide
      simp only [singleLine_append, word.2, singleLine_coordinatePair, space, literal, and_self]
  | color x y method | matte x y method =>
      exact bracketless_repaintLine (by decide) x y method
  | viewbox x1 y1 x2 y2 =>
      have word : PlainWord "viewbox" := by decide
      refine word.plan_bracketless (prefix_intercalate " " "viewbox" _) ?_
      refine singleLine_intercalate (by decide) (List.forall_mem_cons.mpr ⟨word.2, ?_⟩)
      intro group member
      obtain ⟨number, -, rfl⟩ := List.mem_map.mp member
      exact singleLine_int number
  | _ => exact bracketless_pairLine (by decide) _

end Shapes

section Paths

open Quill.Path

theorem Path.ofLetter?_ne {letter : Char} {state : State} (named : ofLetter? letter = some state) :
    letter ≠ 'p' ∧ letter ≠ '\n' := by
  constructor <;>
    · rintro rfl
      cases named

theorem Path.Command.unbracketed (command : Command) (state : State) :
    Unbracketed (command.written state) := by
  rcases command.letters_cases state with ⟨none, -, segment⟩ | ⟨letter, one, named⟩
  · obtain ⟨first, rest, equal, leading⟩ := leading_groups segment
    rw [written, none, equal]
    exact unbracketed_leading leading rest
  · obtain ⟨other, -⟩ := ofLetter?_ne named
    rw [written, one]
    exact ⟨solid_of_letter named _, diverges_cons other, diverges_cons other⟩

theorem Path.Command.newline_notMem_written (command : Command) (state : State) :
    '\n' ∉ command.written state := by
  have groups : SingleLine (" ".intercalate command.groups) := by
    refine singleLine_intercalate (by decide) fun group member newline => ?_
    have solid := (command.groups_isGroup group member).isWord.solid _ newline
    cases solid
  rw [written, List.mem_append, not_or]
  refine ⟨?_, groups⟩
  rcases command.letters_cases state with ⟨none, -⟩ | ⟨letter, one, named⟩
  · rw [none]
    exact List.not_mem_nil
  · rw [one, List.mem_singleton]
    exact (ofLetter?_ne named).2.symm

theorem Path.Step.plan_bracketless {drawing : Drawing} (step : Step) :
    (step.plan drawing).Bracketless := by
  have commands : ∀ command : Command, (command.step.plan drawing).Bracketless := by
    intro command
    rw [command.plan_step]
    refine List.forall_mem_singleton.mpr ?_
    rw [Piece.text, String.toList_append, Token.toList_text, List.append_assoc]
    exact ((command.unbracketed _).bracketless (command.newline_notMem_written _)).behind
      (Token.isSpacing_gap _)
  cases step with
  | start =>
      have word : PlainWord "path '" := by decide
      exact List.forall_mem_singleton.mpr (word.1.bracketless word.2)
  | finish =>
      have quote : PlainWord "'" := by decide
      exact List.forall_mem_singleton.mpr (quote.bracketless (List.prefix_refl _) quote.2)
  | close => exact commands .close
  | segment mode command => exact commands (.segment mode command)

end Paths

section Pictures

theorem bracketless_lines {lines : List String}
    (all : ∀ line ∈ lines, ' ' ∉ line.toList ∧ SingleLine line) :
    Bracketless ("\n".intercalate lines ++ "\n").toList := by
  induction lines with
  | nil => exact bracketless_newline
  | cons first rest ih =>
      obtain ⟨⟨spaceless, single⟩, others⟩ := List.forall_mem_cons.mp all
      have line : Bracketless (first ++ "\n").toList := by
        rw [String.toList_append]
        exact bracketless_of_spaceless spaceless single
      cases rest with
      | nil => simpa using line
      | cons second rest =>
          rw [String.intercalate_cons_cons, String.append_assoc, String.toList_append]
          exact line.append (ih others)

theorem Text.Base64.symbol_apart (value : Nat) : symbol value ≠ ' ' ∧ symbol value ≠ '\n' := by
  have small : ∀ value < 62, symbol value ≠ ' ' ∧ symbol value ≠ '\n' := by decide
  by_cases letter : value < 62
  · exact small value letter
  · unfold symbol
    split_ifs
    all_goals first | omega | decide

theorem Text.Base64.encode_apart (bytes : List UInt8) :
    ∀ character ∈ encode bytes, character ≠ ' ' ∧ character ≠ '\n' := by
  induction bytes using encode.induct with
  | case1 => exact fun _ member => nomatch member
  | case2 first | case3 first second => simp [encode, symbol_apart]
  | case4 first second third rest ih => simpa [encode, symbol_apart] using ih

theorem Text.Base64.lines_apart {bytes : List UInt8} {width : Nat} {line : String}
    (member : line ∈ lines bytes width) : ' ' ∉ line.toList ∧ SingleLine line := by
  obtain ⟨run, inside, rfl⟩ := List.mem_map.mp member
  have encoded : ∀ character ∈ run, character ≠ ' ' ∧ character ≠ '\n' := by
    intro character member
    refine encode_apart bytes character ?_
    rw [← flatten_runs (width - 1) (encode bytes)]
    exact List.mem_flatten_of_mem inside member
  rw [SingleLine, String.toList_ofList]
  exact ⟨fun space => (encoded _ space).1 rfl, fun newline => (encoded _ newline).2 rfl⟩

/-- The first line of the instruction that puts a picture into a program. -/
def Placement.firstLine (placement : Placement) (mime : String) : String :=
  "image " ++ placement.operator.token ++ " " ++
    Number.coordinatePair placement.x placement.y ++ " " ++
    Number.coordinatePair placement.width placement.height ++ " 'data:" ++ mime ++ ";base64,"

theorem Placement.text_eq_lines (placement : Placement) (width : Nat) (encoded : EncodedPicture) :
    placement.text width encoded ++ "\n" =
      placement.firstLine encoded.mime ++ "\n" ++
        ("\n".intercalate (Text.Base64.lines encoded.bytes width) ++ "\n" ++ ("'" ++ "\n")) := by
  have opening : ";base64,\n" = ";base64," ++ "\n" := rfl
  have closing : "\n'" = "\n" ++ "'" := rfl
  unfold text firstLine
  rw [opening, closing]
  simp only [String.append_assoc]

theorem Placement.singleLine_firstLine (placement : Placement) {mime : String}
    (single : SingleLine mime) : SingleLine (placement.firstLine mime) := by
  have token : SingleLine placement.operator.token := by
    cases placement.operator <;> decide
  have literals : SingleLine "image " ∧ SingleLine " " ∧ SingleLine " 'data:" ∧
      SingleLine ";base64," := by decide
  unfold firstLine
  simp only [singleLine_append, token, singleLine_coordinatePair, single, literals, and_self]

/-- A picture says nothing about brackets, though it takes several lines. -/
theorem Placement.bracketless_text (placement : Placement) (width : Nat)
    {encoded : EncodedPicture} (single : SingleLine encoded.mime) :
    Bracketless (placement.text width encoded ++ "\n").toList := by
  have word : PlainWord "image " := by decide
  have quote : PlainWord "'" := by decide
  have starts : "image ".toList <+: (placement.firstLine encoded.mime).toList := by
    unfold firstLine
    repeat refine starts_append ?_ _
    exact List.prefix_refl _
  have first := word.bracketless starts (placement.singleLine_firstLine single)
  have rows : Bracketless
      ("\n".intercalate (Text.Base64.lines encoded.bytes width) ++ "\n").toList :=
    bracketless_lines fun line member => Text.Base64.lines_apart member
  have last := quote.bracketless (List.prefix_refl _) quote.2
  rw [text_eq_lines, String.toList_append]
  refine first.append ?_
  rw [String.toList_append]
  exact rows.append last

end Pictures

section Calls

variable {tools : Tools} {drawing : Drawing} {call : Call} {plan : Plan}

/-- What a plain call writes says nothing about brackets. -/
theorem Call.plan?_bracketless (planned : call.plan? tools drawing = some plan)
    (plain : call.Plain) (single : Request.SingleLine ⟨tools, call⟩) : plan.Bracketless := by
  cases call with
  | instruct instruction =>
      cases planned
      cases instruction with
      | setting setting =>
          rw [Instruction.plan, setting.plan_eq_edit]
          cases edits : setting.edit? tools drawing with
          | error failure => trivial
          | ok edit => exact (Setting.edit?_bracketless edits single.texts).plan
      | motion motion => exact motion.plan_bracketless
      | shape shape => exact shape.plan_bracketless single.texts
      | path step => exact step.plan_bracketless
      | bracket bracket => exact (plain bracket rfl).elim
      | comment text =>
          have mark : PlainWord "#" := by decide
          exact mark.plan_operand (single.texts text List.mem_cons_self)
  | accent accent color =>
      cases planned
      rw [Drawing.accentPlan_eq_edit]
      refine Edit.Bracketless.plan ?_
      rintro spelling ⟨⟩
      exact ⟨accent.plainWord, singleLine_quotedColor color⟩
  | composite placement picture =>
      simp only [plan?] at planned
      split at planned
      · cases planned
      split at planned
      · cases planned
        trivial
      split at planned
      · cases planned
        trivial
      · rename_i encoded encodes
        cases planned
        have media := single.media placement picture encoded rfl encodes
        exact List.forall_mem_singleton.mpr (placement.bracketless_text _ media)
  | render _ | dropProgram | clear | clearError => cases planned

end Calls

end Quill
