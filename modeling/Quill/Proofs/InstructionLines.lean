import Quill.Proofs.Indenting

/-!
# The lines of instructions

Every call but a composite writes an instruction of one line, which starts with the instruction's
word and in which only lists of points and path literals may be broken, between two pieces.  A
composite starts with its word too, but goes on with lines of picture data.
-/

namespace Quill

/-- A text on one line that starts with something else than white space. -/
structure Headed (text : String) : Prop where
  solid : Solid text.toList
  single : SingleLine text

section Texts

variable {word text more : String}

theorem PlainWord.headed (plain : PlainWord word) : Headed word :=
  ⟨plain.1.1, plain.2⟩

theorem Headed.append (headed : Headed text) (single : SingleLine more) :
    Headed (text ++ more) :=
  ⟨by rw [String.toList_append]; exact headed.solid.append _,
    singleLine_append.mpr ⟨headed.single, single⟩⟩

theorem Headed.intercalate (headed : Headed word) {groups : List String}
    (single : ∀ group ∈ groups, SingleLine group) : Headed (" ".intercalate (word :: groups)) := by
  refine ⟨?_, singleLine_intercalate (by decide) (List.forall_mem_cons.mpr ⟨headed.single, single⟩)⟩
  obtain ⟨more, equal⟩ := prefix_intercalate " " word groups
  exact equal ▸ headed.solid.append more

end Texts

/-- The pieces of an instruction of one line. -/
structure InLine (pieces : List Piece) : Prop where
  leads : Leads pieces
  lined : Lined pieces

theorem Headed.inLine {text : String} (headed : Headed text) : InLine [.plain (text ++ "\n")] :=
  ⟨.line headed.solid, .line headed.single⟩

section Instructions

variable {tools : Tools} {drawing : Drawing} {pieces : List Piece} {change : Change}

theorem Edit.plan_inLine {edit : Edit} (bracketless : edit.Bracketless)
    (planned : edit.plan drawing = .write pieces change) : InLine pieces := by
  obtain ⟨spelling, spelled, rfl, -⟩ := edit.plan_write planned
  obtain ⟨word, operand⟩ := bracketless spelling spelled
  have space : SingleLine " " := by decide
  exact ((word.headed.append space).append operand).inLine

theorem Motion.headed_text (motion : Motion) : Headed motion.text := by
  have operand : ∀ {word text : String}, PlainWord word → SingleLine text →
      Headed (word ++ text) := fun word single => word.headed.append single
  cases motion with
  | affine map =>
      refine operand (by decide) (singleLine_intercalate (by decide) fun group member => ?_)
      obtain ⟨value, -, rfl⟩ := List.mem_map.mp member
      exact singleLine_significant 6 value
  | rotate degrees | skewX degrees | skewY degrees =>
      exact operand (by decide) (singleLine_coordinate degrees)
  | scale x y | translate x y => exact operand (by decide) (singleLine_coordinatePair x y)

theorem Shape.pairLine_inLine {word : String} (plain : PlainWord word)
    (pairs : List (Float × Float)) : InLine (pairLine word pairs) := by
  refine (plain.headed.intercalate ?_).inLine
  intro group member
  obtain ⟨pair, -, rfl⟩ := List.mem_map.mp member
  exact singleLine_coordinatePair pair.1 pair.2

/-- A list of points may be broken before each of its points. -/
theorem Shape.pointList_inLine {word : String} (plain : PlainWord word)
    (points : List (Float × Float)) : InLine (pointList word points) := by
  refine ⟨⟨word, _, rfl, plain.1.1⟩, _, "", rfl, by decide, ?_⟩
  intro piece member
  rcases List.mem_cons.mp member with rfl | among
  · exact plain.2
  · obtain ⟨point, -, rfl⟩ := List.mem_map.mp among
    exact singleLine_append.mpr ⟨by decide, singleLine_coordinatePair point.1 point.2⟩

theorem Shape.repaintLine_inLine {word : String} (plain : PlainWord word) (x y : Float)
    (method : Repaint) : InLine (repaintLine word x y method) := by
  have space : SingleLine " " := by decide
  have token : SingleLine method.token := by cases method <;> decide
  have named := plain.headed.append space
  exact (((named.append (singleLine_coordinatePair x y)).append space).append token).inLine

theorem Shape.pieces_inLine (shape : Shape)
    (single : ∀ text ∈ (Call.instruct (.shape shape)).texts, SingleLine text) :
    InLine shape.pieces := by
  cases shape with
  | bezier points | polygon points | polyline points => exact pointList_inLine (by decide) points
  | color x y method | matte x y method => exact repaintLine_inLine (by decide) x y method
  | caption x y text =>
      have word : PlainWord "text " := by decide
      have space : SingleLine " " := by decide
      have literal := singleLine_literal (single text List.mem_cons_self)
      have placed := word.headed.append (singleLine_coordinatePair x y)
      exact ((placed.append space).append literal).inLine
  | viewbox x1 y1 x2 y2 =>
      have word : PlainWord "viewbox" := by decide
      refine (word.headed.intercalate ?_).inLine
      intro group member
      obtain ⟨number, -, rfl⟩ := List.mem_map.mp member
      exact singleLine_int number
  | _ => exact pairLine_inLine (by decide) _

/-- What a call writes that neither writes path data nor puts in a picture nor is a bracket. -/
theorem Call.plan?_inLine {call : Call}
    (planned : call.plan? tools drawing = some (.write pieces change)) (plain : call.Plain)
    (pathless : ∀ step, call ≠ .instruct (.path step))
    (pictureless : ∀ placement picture, call ≠ .composite placement picture)
    (single : ∀ text ∈ call.texts, SingleLine text) : InLine pieces := by
  cases call with
  | instruct instruction =>
      have planned := Option.some.inj planned
      cases instruction with
      | setting setting =>
          rw [Instruction.plan, setting.plan_eq_edit] at planned
          cases edits : setting.edit? tools drawing with
          | error failure =>
              rw [edits] at planned
              cases planned
          | ok edit =>
              rw [edits] at planned
              exact Edit.plan_inLine (Setting.edit?_bracketless edits single) planned
      | motion motion =>
          rw [Instruction.plan, Motion.plan] at planned
          split at planned
          · cases planned
          · cases planned
            exact motion.headed_text.inLine
      | shape shape =>
          cases planned
          exact shape.pieces_inLine single
      | path step => exact (pathless step rfl).elim
      | bracket bracket => exact (plain bracket rfl).elim
      | comment text =>
          cases planned
          have mark : PlainWord "#" := by decide
          exact (mark.headed.append (single text List.mem_cons_self)).inLine
  | accent accent color =>
      have planned := Option.some.inj planned
      rw [Drawing.accentPlan_eq_edit] at planned
      refine Edit.plan_inLine ?_ planned
      rintro spelling ⟨⟩
      exact ⟨accent.plainWord, singleLine_quotedColor color⟩
  | composite placement picture => exact (pictureless placement picture rfl).elim
  | render _ | dropProgram | clear | clearError => cases planned

theorem Call.composite_leads {placement : Placement} {picture : Picture}
    (planned : (Call.composite placement picture).plan? tools drawing =
      some (.write pieces change)) : Leads pieces := by
  rcases composite_plan_cases planned with refused | ⟨failure, -, refused⟩ | ⟨encoded, written⟩
  · cases refused
  · cases refused
  · cases written
    refine .line ?_
    obtain ⟨more, equal⟩ := placement.starts_text drawing.settings.base64Width encoded
    have word : Solid "image ".toList := by decide
    exact equal ▸ word.append more

theorem Bracket.Opens.headed {bracket : Bracket} {text : String}
    (opens : bracket.Opens drawing text change)
    (single : ∀ text ∈ (Call.instruct (.bracket bracket)).texts, SingleLine text) :
    Headed text := by
  have word : Headed "push " := ⟨by decide, by decide⟩
  cases opens with
  | scope => exact word.append (by decide : SingleLine "graphic-context")
  | @pattern id x y width height vacant =>
      have space : SingleLine " " := by decide
      have named : Headed ("push pattern " ++ id) :=
        Headed.append ⟨by decide, by decide⟩ (single id List.mem_cons_self)
      have placed := (named.append space).append (singleLine_coordinatePair x y)
      exact (placed.append space).append (singleLine_coordinatePair width height)
  | @clipPath id => exact Headed.append ⟨by decide, by decide⟩ (single id List.mem_cons_self)
  | defs => exact word.append (by decide : SingleLine "defs")

theorem Bracket.Closes.headed {bracket : Bracket} {text : String}
    (closes : bracket.Closes drawing text change) : Headed text := by
  cases closes <;> exact ⟨by decide, by decide⟩

end Instructions

section Paths

open Quill.Path

theorem Path.Token.singleLine_text (token : Token) (letters : '\n' ∉ token.letters) :
    SingleLine token.text := by
  rw [SingleLine, Token.toList_text, List.mem_append, not_or]
  refine ⟨?_, letters⟩
  cases token with
  | first letter => exact List.not_mem_nil
  | command letter | continued => exact (by decide : '\n' ∉ [' '])

/-- A command of path data is one piece, which may be moved to a line of its own. -/
theorem Path.Command.singleLine_piece (command : Command) (state : State) :
    SingleLine ((command.token state).text ++ " ".intercalate command.groups) := by
  have unbroken := command.newline_notMem_written state
  rw [written, List.mem_append, not_or] at unbroken
  exact singleLine_append.mpr ⟨Token.singleLine_text _ unbroken.1, unbroken.2⟩

end Paths

end Quill
