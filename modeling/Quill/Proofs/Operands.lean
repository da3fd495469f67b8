import Quill.Proofs.Edits
import Quill.Proofs.PathWords

/-!
# Operands

An instruction is told by the word at the start of its line, and what stands behind the word is
its operand.  Only the instructions that set a paint or its opacity start with one of four words;
the text of every other call differs from all of them.
-/

namespace Quill

open Lexing (skip skip_spacing)

/-- What stands behind a word in the first line of a text, if the line starts with the word.
White space before it does not count. -/
def operand? (word : String) (text : List Char) : Option (List Char) :=
  (List.isPrefixOf? (word ++ " ").toList (skip text)).map (·.takeWhile (· != '\n'))

/-- Two texts that differ before either of them ends. -/
def Diverges (first second : List Char) : Prop :=
  ¬ first <+: second ∧ ¬ second <+: first

instance (first second : List Char) : Decidable (Diverges first second) :=
  inferInstanceAs (Decidable (_ ∧ _))

def paintWords : List String :=
  ["fill", "fill-opacity", "stroke", "stroke-opacity"]

/-- A text that starts neither with white space nor with an instruction about a paint. -/
def Unpainted (text : List Char) : Prop :=
  Solid text ∧ ∀ word ∈ paintWords, Diverges text (word ++ " ").toList

instance (text : List Char) : Decidable (Unpainted text) :=
  inferInstanceAs (Decidable (_ ∧ _))

section Reading

variable {word : String} {text gap : List Char}

theorem Diverges.append {other : List Char} (diverges : Diverges text other) (more : List Char) :
    Diverges (text ++ more) other := by
  refine ⟨fun longer => diverges.1 ((List.prefix_append text more).trans longer), ?_⟩
  intro starts
  rcases List.prefix_or_prefix_of_prefix starts (List.prefix_append text more) with within | within
  · exact diverges.2 within
  · exact diverges.1 within

theorem Unpainted.append (unpainted : Unpainted text) (more : List Char) :
    Unpainted (text ++ more) :=
  ⟨unpainted.1.append more, fun word member => (unpainted.2 word member).append more⟩

theorem operand?_of_diverges (spacing : IsSpacing gap) (solid : Solid text)
    (diverges : Diverges text (word ++ " ").toList) : operand? word (gap ++ text) = none := by
  rw [operand?, skip_spacing spacing, solid.skip, Option.map_eq_none_iff,
    Option.eq_none_iff_forall_ne_some]
  intro rest starts
  rw [List.isPrefixOf?_eq_some_iff_append_eq] at starts
  exact diverges.2 ⟨rest, starts⟩

theorem Unpainted.operand? (unpainted : Unpainted text) (spacing : IsSpacing gap)
    (member : word ∈ paintWords) : operand? word (gap ++ text) = none :=
  operand?_of_diverges spacing unpainted.1 (unpainted.2 word member)

/-- Behind its word an operand goes to the end of the line. -/
theorem operand?_word (spacing : IsSpacing gap) (solid : Solid word.toList) (rest : List Char) :
    Quill.operand? word (gap ++ ((word ++ " ").toList ++ rest)) =
      some (rest.takeWhile (· != '\n')) := by
  have starts : List.isPrefixOf? (word ++ " ").toList ((word ++ " ").toList ++ rest) =
      some rest := by
    rw [List.isPrefixOf?_eq_some_iff_append_eq]
  have solid : Solid ((word ++ " ").toList ++ rest) := by
    rw [String.toList_append, List.append_assoc]
    exact solid.append _
  rw [Quill.operand?, skip_spacing spacing, solid.skip, starts, Option.map_some]

end Reading

def Piece.text : Piece → String
  | .plain text | .wrapping text => text

/-- Pieces that start with something else than an instruction about a paint. -/
def LeadUnpainted (pieces : List Piece) : Prop :=
  ∃ piece rest gap text, pieces = piece :: rest ∧ piece.text.toList = gap ++ text ∧
    IsSpacing gap ∧ Unpainted text

section Writing

variable {pieces : List Piece}

theorem Buffer.wrote_spacing (layout : Layout) (buffer : Buffer) (piece : Piece) :
    ∃ gap, Grows buffer (buffer.wrote layout piece) (gap ++ piece.text) ∧
      IsSpacing gap.toList := by
  cases piece with
  | plain text => exact ⟨_, buffer.extended_grows text, isSpacing_spaces _⟩
  | wrapping text => exact buffer.wrote_wrapping_grows layout text

theorem LeadUnpainted.operand? (lead : LeadUnpainted pieces) (layout : Layout) (buffer : Buffer) :
    ∃ added, Buffer.Grows buffer (pieces.foldl (Buffer.wrote layout) buffer) added ∧
      ∀ word ∈ paintWords, Quill.operand? word added.toList = none := by
  obtain ⟨piece, rest, inner, text, rfl, split, spacing, unpainted⟩ := lead
  obtain ⟨gap, first, before⟩ := buffer.wrote_spacing layout piece
  obtain ⟨more, others⟩ := Buffer.wroteEach_grows layout (buffer.wrote layout piece) rest
  refine ⟨_, first.trans others, ?_⟩
  intro word member
  have added : (gap ++ piece.text ++ more).toList =
      (gap.toList ++ inner) ++ (text ++ more.toList) := by
    simp only [String.toList_append, split, List.append_assoc]
  rw [added]
  exact (unpainted.append _).operand? (before.append spacing) member

theorem LeadUnpainted.of_word (word : String) {text : String} {rest : List Piece}
    (starts : word.toList <+: text.toList) (unpainted : Unpainted word.toList) :
    LeadUnpainted (.plain text :: rest) := by
  obtain ⟨more, equal⟩ := starts
  exact ⟨_, _, [], _, rfl, equal.symm, nofun, unpainted.append more⟩

theorem starts_append {word text : String} (starts : word.toList <+: text.toList)
    (more : String) : word.toList <+: (text ++ more).toList := by
  rw [String.toList_append]
  exact starts.trans (List.prefix_append _ _)

theorem prefix_intercalate (separator word : String) (groups : List String) :
    word.toList <+: (separator.intercalate (word :: groups)).toList := by
  cases groups with
  | nil =>
      have single : separator.intercalate [word] = word := String.intercalate_singleton
      exact single.symm ▸ List.prefix_refl _
  | cons group groups =>
      rw [String.intercalate_cons_cons, String.append_assoc, String.toList_append]
      exact List.prefix_append _ _

theorem Shape.leadUnpainted (shape : Shape) : LeadUnpainted shape.pieces := by
  have words : ∀ {word groups}, Unpainted word.toList →
      LeadUnpainted [.plain (" ".intercalate (word :: groups) ++ "\n")] := by
    intro word groups unpainted
    refine .of_word word ?_ unpainted
    exact starts_append (prefix_intercalate " " word groups) "\n"
  cases shape with
  | bezier points | polygon points | polyline points =>
      exact .of_word _ (List.prefix_refl _) (by decide +kernel)
  | caption x y text => exact .of_word "text " (by simp) (by decide +kernel)
  | color x y method => exact .of_word "color " (by simp) (by decide +kernel)
  | matte x y method => exact .of_word "matte " (by simp) (by decide +kernel)
  | _ => exact words (by decide +kernel)

end Writing

section Paths

variable {first second : Char} {rest text other : List Char}

theorem diverges_cons (apart : first ≠ second) : Diverges (first :: text) (second :: other) := by
  refine ⟨fun starts => ?_, fun starts => ?_⟩
  · exact apart (List.cons_prefix_cons.mp starts).1
  · exact apart (List.cons_prefix_cons.mp starts).1.symm

theorem Diverges.cons (diverges : Diverges text other) (first : Char) :
    Diverges (first :: text) (first :: other) := by
  refine ⟨fun starts => ?_, fun starts => ?_⟩
  · exact diverges.1 (List.cons_prefix_cons.mp starts).2
  · exact diverges.2 (List.cons_prefix_cons.mp starts).2

theorem unpainted_cons (solid : Solid (first :: rest)) (notFill : first ≠ 'f')
    (notStroke : first ≠ 's') : Unpainted (first :: rest) := by
  refine ⟨solid, ?_⟩
  intro word member
  simp only [paintWords, List.mem_cons, List.not_mem_nil, or_false] at member
  rcases member with rfl | rfl | rfl | rfl
  · exact diverges_cons notFill
  · exact diverges_cons notFill
  · exact diverges_cons notStroke
  · exact diverges_cons notStroke

/-- The letter of smooth curves begins the word of strokes, but what follows it does not go on
with that word. -/
theorem unpainted_smooth (notStroke : second ≠ 't') : Unpainted ('s' :: second :: rest) := by
  refine ⟨rfl, ?_⟩
  intro word member
  simp only [paintWords, List.mem_cons, List.not_mem_nil, or_false] at member
  rcases member with rfl | rfl | rfl | rfl
  · exact diverges_cons (by decide)
  · exact diverges_cons (by decide)
  · exact (diverges_cons notStroke).cons 's'
  · exact (diverges_cons notStroke).cons 's'

theorem unpainted_leading (leads : Number.isLeading first) : Unpainted (first :: rest) := by
  refine unpainted_cons (solid_of_isLeading leads rest) ?_ ?_ <;>
    (rintro rfl; cases leads)

namespace Path

theorem ofLetter?_begins {state : State} (letter : ofLetter? first = some state) :
    first ≠ 'f' ∧ (first = 's' → state.operation = .smoothCurve) := by
  revert letter
  fun_cases ofLetter? first with
  | case21 =>
      intro letter
      cases letter
  | _ =>
      rintro ⟨⟩
      decide +kernel

theorem Command.leading_groups {command : Command} (segment : command.operation ≠ .close) :
    ∃ first rest, (" ".intercalate command.groups).toList = first :: rest ∧
      Number.isLeading first := by
  have groups : ∃ group others, command.groups = group :: others := by
    cases command with
    | close => exact (segment rfl).elim
    | segment mode command => cases command <;> exact ⟨_, _, rfl⟩
  obtain ⟨group, others, equal⟩ := groups
  have isGroup := command.groups_isGroup group (equal ▸ List.mem_cons_self)
  obtain ⟨first, rest, leads, leading⟩ := isGroup.leading
  obtain ⟨more, longer⟩ := prefix_intercalate " " group others
  refine ⟨first, rest ++ more, ?_, leading⟩
  rw [equal, ← longer, leads, List.cons_append]

theorem Command.unpainted (command : Command) (state : State) :
    Unpainted ((command.token state).letters ++ (" ".intercalate command.groups).toList) := by
  rcases command.letters_cases state with ⟨none, -, segment⟩ | ⟨letter, one, named⟩
  · obtain ⟨first, rest, equal, leading⟩ := leading_groups segment
    rw [none, equal]
    exact unpainted_leading leading
  · obtain ⟨notFill, smooth⟩ := ofLetter?_begins named
    rw [one]
    by_cases stroke : letter = 's'
    · have curve : command.operation = .smoothCurve := smooth stroke
      have segment : command.operation ≠ .close := by
        rw [curve]
        exact Operation.noConfusion
      obtain ⟨first, rest, equal, leading⟩ := leading_groups segment
      have notStroke : first ≠ 't' := by
        rintro rfl
        cases leading
      rw [stroke, equal]
      exact unpainted_smooth notStroke
    · exact unpainted_cons (solid_of_letter named _) notFill stroke

end Path

end Paths

inductive Edit.OfPaint (context : Context) (side : Side) : Edit → Prop
  | color (color : Rgba) : OfPaint context side (context.paintEdit side color)
  | pattern (id : String) : OfPaint context side (context.patternEdit side id)
  | opacity (opacity : Float) : OfPaint context side (context.paintOpacityEdit side opacity)

/-- An edit that neither changes a paint nor is written like one that does. -/
structure Edit.Unpainted (edit : Edit) : Prop where
  word : ∀ spelling, edit.spelling = some spelling → Quill.Unpainted edit.word.toList
  paint : ∀ (context : Context) (side : Side),
    (edit.change context).paint side = context.paint side

def Change.KeepsPaints : Change → Prop
  | .context change =>
    ∀ (context : Context) (side : Side), (change context).paint side = context.paint side
  | _ => True

/-- A plan that neither changes a paint nor writes like one that does. -/
def Plan.Unpainted : Plan → Prop
  | .write pieces change => LeadUnpainted pieces ∧ change.KeepsPaints
  | .adjust change => (Change.context change).KeepsPaints
  | .refuse _ | .keep => True
  | .close _ _ => False

section Calls

variable {tools : Tools} {drawing : Drawing} {edit : Edit} {call : Call} {pieces : List Piece}
  {change : Change} {plan : Plan}

theorem Attribute.paint_untouched {kind : Attribute} (other : ∀ side, kind ≠ .paint side)
    (side : Side) : Attribute.paint side ∉ kind.touched := by
  cases kind with
  | paint written => exact (other written rfl).elim
  | clipUnits =>
      intro member
      simp only [touched, List.mem_cons, List.not_mem_nil, or_false] at member
      rcases member with equal | equal <;> cases equal
  | _ =>
      intro member
      cases List.mem_singleton.mp member

theorem Accent.unpainted_word (accent : Accent) : Unpainted accent.word.toList := by
  cases accent <;> decide +kernel

theorem Accent.edit_unpainted (context : Context) (accent : Accent) (color : Rgba) :
    (context.accentEdit accent color).Unpainted := by
  refine ⟨fun _ _ => accent.unpainted_word, ?_⟩
  intro context side
  cases accent <;> cases side <;> rfl

/-- Settings set a paint, or nothing that they do or write is about paints. -/
theorem Setting.edit?_cases {setting : Setting} (edits : setting.edit? tools drawing = .ok edit) :
    (∃ side, edit.OfPaint drawing.context side) ∨ edit.Unpainted := by
  have paints : (∀ side, edit.target ≠ .paint side) → ∀ (context : Context) (side : Side),
      (edit.change context).paint side = context.paint side :=
    fun other context side =>
      setting.edit?_frame context edits (Attribute.paint_untouched other side)
  have labels : ∀ index : Label, Unpainted index.word.toList := by
    intro index
    cases index <;> decide +kernel
  have measures : ∀ index : Measure, Unpainted index.word.toList := by
    intro index
    cases index <;> decide +kernel
  have smoothings : ∀ smoothing : Smoothing, Unpainted smoothing.word.toList := by
    intro smoothing
    cases smoothing <;> decide +kernel
  cases setting with
  | paintName side name =>
      obtain ⟨color, -, rfl⟩ := exists_of_map_ok edits
      exact .inl ⟨side, .color color⟩
  | paint side color =>
      cases edits
      exact .inl ⟨side, .color color⟩
  | paintPattern side url =>
      obtain ⟨id, -, rfl⟩ := exists_of_map_ok edits
      exact .inl ⟨side, .pattern id⟩
  | paintOpacity side value =>
      cases edits
      exact .inl ⟨side, .opacity value⟩
  | accentName accent name =>
      obtain ⟨color, -, rfl⟩ := exists_of_map_ok edits
      exact .inr (accent.edit_unpainted _ color)
  | label index text =>
      obtain ⟨text, -, rfl⟩ := exists_of_map_ok edits
      exact .inr ⟨fun _ _ => labels index, paints nofun⟩
  | clipPath id =>
      obtain ⟨id, -, rfl⟩ := exists_of_map_ok edits
      refine .inr ⟨fun _ _ => ?_, paints nofun⟩
      dsimp only [Context.clipPathEdit]
      decide +kernel
  | measure index value =>
      cases edits
      exact .inr ⟨fun _ _ => measures index, paints nofun⟩
  | antialias smoothing enabled =>
      cases edits
      exact .inr ⟨fun _ _ => smoothings smoothing, paints nofun⟩
  | clipUnits units =>
      cases edits
      refine .inr ⟨fun _ _ => ?_, paints nofun⟩
      dsimp only [Context.clipUnitsEdit]
      decide +kernel
  | bounds rectangle =>
      cases edits
      exact .inr ⟨nofun, paints nofun⟩
  | _ =>
      cases edits
      refine .inr ⟨fun _ _ => ?_, paints nofun⟩
      dsimp only
      decide +kernel

theorem Path.Step.plan_unpainted (step : Path.Step) : (step.plan drawing).Unpainted := by
  have commands : ∀ command : Path.Command, (command.step.plan drawing).Unpainted := by
    intro command
    rw [command.plan_step]
    refine ⟨⟨_, _, (command.token drawing.path).gap, _, rfl, ?_,
      (command.token drawing.path).isSpacing_gap, command.unpainted drawing.path⟩, trivial⟩
    rw [Piece.text, String.toList_append, Path.Token.toList_text, List.append_assoc]
  cases step with
  | start => exact ⟨.of_word "path '" (List.prefix_refl _) (by decide +kernel), trivial⟩
  | finish => exact ⟨.of_word "'" (List.prefix_append _ ['\n']) (by decide +kernel), trivial⟩
  | close => exact commands .close
  | segment mode command => exact commands (.segment mode command)

theorem Motion.leadUnpainted (motion : Motion) :
    LeadUnpainted [.plain (motion.text ++ "\n")] := by
  cases motion with
  | affine map => exact .of_word "affine " (by simp [text]) (by decide +kernel)
  | rotate degrees => exact .of_word "rotate " (by simp [text]) (by decide +kernel)
  | scale x y => exact .of_word "scale " (by simp [text]) (by decide +kernel)
  | skewX degrees => exact .of_word "skewX " (by simp [text]) (by decide +kernel)
  | skewY degrees => exact .of_word "skewY " (by simp [text]) (by decide +kernel)
  | translate x y => exact .of_word "translate " (by simp [text]) (by decide +kernel)

theorem Placement.starts_text (placement : Placement) (width : Nat) (encoded : EncodedPicture) :
    "image ".toList <+: (placement.text width encoded).toList := by
  unfold text
  repeat refine starts_append ?_ _
  exact List.prefix_refl _

theorem Edit.Unpainted.unpainted_plan (unpainted : edit.Unpainted) :
    (edit.plan drawing).Unpainted := by
  unfold Edit.plan Drawing.updateSpelled
  split
  · trivial
  cases spelled : edit.spelling with
  | none => exact unpainted.paint
  | some spelling =>
      refine ⟨.of_word edit.word ?_ (unpainted.word spelling spelled), unpainted.paint⟩
      repeat refine starts_append ?_ _
      exact List.prefix_refl _

/-- A plain call sets a paint, or nothing that it does or writes is about paints. -/
theorem Call.plan_cases (planned : call.plan? tools drawing = some plan) (plain : call.Plain) :
    (∃ (side : Side) (edit : Edit), edit.OfPaint drawing.context side ∧ plan = edit.plan drawing) ∨
      plan.Unpainted := by
  cases call with
  | instruct instruction =>
      cases planned
      cases instruction with
      | setting change =>
          rw [Instruction.plan, change.plan_eq_edit]
          cases edits : change.edit? tools drawing with
          | error failure => exact .inr trivial
          | ok edit =>
              rcases Setting.edit?_cases edits with ⟨side, ofPaint⟩ | unpainted
              · exact .inl ⟨side, edit, ofPaint, rfl⟩
              · exact .inr unpainted.unpainted_plan
      | motion move =>
          rw [Instruction.plan, Motion.plan]
          split
          · exact .inr trivial
          · exact .inr ⟨move.leadUnpainted, fun _ side => by cases side <;> rfl⟩
      | shape figure => exact .inr ⟨figure.leadUnpainted, trivial⟩
      | path step => exact .inr step.plan_unpainted
      | bracket edge => exact (plain edge rfl).elim
      | comment text =>
          refine .inr ⟨.of_word "#" ?_ (by decide +kernel), trivial⟩
          simp [String.toList_append]
  | accent kind color =>
      cases planned
      rw [Drawing.accentPlan_eq_edit]
      exact .inr (kind.edit_unpainted _ color).unpainted_plan
  | composite placement picture =>
      rcases composite_plan_cases planned with rfl | ⟨failure, -, rfl⟩ | ⟨encoded, rfl⟩
      · exact .inr trivial
      · exact .inr trivial
      · refine .inr ⟨.of_word "image " ?_ (by decide +kernel), trivial⟩
        exact starts_append (placement.starts_text _ encoded) "\n"
  | render _ | dropProgram | clear | clearError => cases planned

end Calls

end Quill
