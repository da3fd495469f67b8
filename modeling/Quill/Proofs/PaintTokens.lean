import Quill.Proofs.Capture
import Quill.Proofs.Operands
import Quill.Proofs.Scopes

/-!
# Paints as the program has them

Beside a drawing one can follow what its program says about the paints of every open context: the
operand of the last instruction that set the paint, copied into each new scope.  A paint that is in
force is left out only if the program's token has its color, except that an opacity makes opaque
black of no paint.
-/

namespace Quill

/-- What a program says about a paint: the operand of the last instruction that set it, and whether
an opacity was set for it since. -/
structure PaintToken where
  token : String
  faded : Bool := false
  deriving DecidableEq, Repr

/-- The token behind a text that a call wrote. -/
def PaintToken.read (held : PaintToken) (side : Side) (written : String) : PaintToken :=
  match operand? side.word written.toList with
  | some token => ⟨String.ofList token, false⟩
  | none =>
    { held with
      faded := held.faded || (operand? (side.word ++ "-opacity") written.toList).isSome }

/-- The tokens of both paints of a context. -/
abbrev PaintTokens := Side → PaintToken

namespace PaintTokens

/-- The tokens before any instruction. -/
def initial : PaintTokens
  | .fill => ⟨"'#000000'", false⟩
  | .stroke => ⟨"'none'", false⟩

def read (held : PaintTokens) (written : String) : PaintTokens :=
  fun side => (held side).read side written

/-- The tokens of all contexts behind a call, those of the innermost first.  A new scope has the
tokens of the one around it. -/
def track (call : Call) (outcome : Outcome) (written : String) (held : List PaintTokens) :
    List PaintTokens :=
  match call, outcome with
  | .instruct (.bracket .openScope), .done => held.take 1 ++ held
  | .instruct (.bracket .closeScope), .done => held.tail
  | .clear, _ => [initial]
  | _, _ => held.modifyHead (·.read written)

end PaintTokens

namespace Drawing

/-- The tokens of all contexts behind some requests. -/
def paintTokens (drawing : Drawing) (held : List PaintTokens) : List Request → List PaintTokens
  | [] => held
  | request :: rest =>
    let served := drawing.serve request
    served.1.paintTokens
      (PaintTokens.track request.call served.2 (drawing.added served.1) held) rest

end Drawing

/-- A token that says what a paint holds.  Below a pattern the color does not show; an opacity
changes the color without a new token. -/
def PaintToken.Matches (held : PaintToken) (paint : Paint) : Prop :=
  paint.pattern = none →
    ∃ alpha, held.token = quotedColor (paint.color.withAlpha alpha) ∧
      (held.faded = true ∨ alpha = paint.color.a)

/-- Tokens that say what the paints of a context hold. -/
def PaintTokens.Match (context : Context) (held : PaintTokens) : Prop :=
  ∀ side, (held side).Matches (context.paint side)

/-- A text that starts with no instruction about a paint. -/
def Silent (written : String) : Prop :=
  ∀ word ∈ paintWords, operand? word written.toList = none

section Reading

variable {held : PaintTokens} {written : String} {side : Side} {gap : String}

theorem PaintTokens.read_silent (silent : Silent written) : held.read written = held := by
  funext side
  have colored : operand? side.word written.toList = none :=
    silent _ (by cases side <;> decide)
  have faded : operand? (side.word ++ "-opacity") written.toList = none :=
    silent _ (by cases side <;> decide)
  simp only [read, PaintToken.read, colored, faded, Option.isSome_none, Bool.or_false]

theorem silent_empty : Silent "" := by
  intro word member
  simp only [paintWords, List.mem_cons, List.not_mem_nil, or_false] at member
  rcases member with rfl | rfl | rfl | rfl <;> rfl

/-- A line that is not about paints, indented by spaces. -/
theorem silent_line {text : String} (count : Nat) (unpainted : Unpainted text.toList) :
    Silent (spaces count ++ (text ++ "\n")) := by
  intro word member
  rw [String.toList_append, String.toList_append]
  exact (unpainted.append _).operand? (isSpacing_spaces count) member

/-- A line that starts with a word of one paint says nothing about the other. -/
theorem PaintTokens.read_other {other : Side} {word : String} {rest : List Char}
    (line : written.toList = gap.toList ++ ((word ++ " ").toList ++ rest))
    (spacing : IsSpacing gap.toList) (own : word = side.word ∨ word = side.word ++ "-opacity")
    (apart : other ≠ side) : held.read written other = held other := by
  have solid : Solid ((word ++ " ").toList ++ rest) := by
    rcases own with rfl | rfl <;> cases side <;> exact Solid.append (by decide) _
  have none : ∀ word' ∈ [other.word, other.word ++ "-opacity"],
      operand? word' written.toList = none := by
    intro word' member
    rw [line]
    refine operand?_of_diverges spacing solid (Diverges.append ?_ rest)
    simp only [List.mem_cons, List.not_mem_nil, or_false] at member
    rcases own with rfl | rfl <;> rcases member with rfl | rfl <;> cases side <;> cases other <;>
      first | decide | exact (apart rfl).elim
  have colored := none _ List.mem_cons_self
  have faded := none _ (List.mem_cons_of_mem _ List.mem_cons_self)
  simp only [read, PaintToken.read, colored, faded, Option.isSome_none, Bool.or_false]

theorem PaintTokens.read_color {operand : String}
    (line : written.toList = gap.toList ++ ((side.word ++ " ").toList ++ (operand ++ "\n").toList))
    (spacing : IsSpacing gap.toList) (single : '\n' ∉ operand.toList) :
    held.read written side = ⟨operand, false⟩ := by
  have solid : Solid side.word.toList := by cases side <;> decide
  have newline : "\n".toList = ['\n'] := rfl
  have colored : operand? side.word written.toList = some operand.toList := by
    rw [line, operand?_word spacing solid, String.toList_append, newline,
      List.takeWhile_append_of_pos]
    · simp
    · intro character member
      rw [bne_iff_ne]
      rintro rfl
      exact single member
  simp only [read, PaintToken.read, colored, String.ofList_toList]

theorem PaintTokens.read_opacity {rest : List Char}
    (line : written.toList = gap.toList ++ ((side.word ++ "-opacity" ++ " ").toList ++ rest))
    (spacing : IsSpacing gap.toList) :
    held.read written side = { held side with faded := true } := by
  have solid : Solid (side.word ++ "-opacity").toList := by cases side <;> decide
  have faded : (operand? (side.word ++ "-opacity") written.toList).isSome = true := by
    rw [line, operand?_word spacing solid, Option.isSome_some]
  have colored : operand? side.word written.toList = none := by
    rw [line]
    refine operand?_of_diverges spacing ?_ (Diverges.append ?_ rest)
    · exact Solid.append (by cases side <;> decide) rest
    · cases side <;> decide
  simp only [read, PaintToken.read, colored, faded, Bool.or_true]

theorem newline_notMem_digits (channel : UInt8) : '\n' ∉ Rgba.digits channel := by
  have digit : ∀ value < 16, Number.upperHexDigit value ≠ '\n' := by decide
  have small := channel.toNat_lt
  have high := digit (channel.toNat / 16) (by omega)
  have low := digit (channel.toNat % 16) (by omega)
  simp [Rgba.digits, high.symm, low.symm]

theorem newline_notMem_quotedColor (color : Rgba) : '\n' ∉ (quotedColor color).toList := by
  have characters : '\n' ∉ color.characters := by
    rw [Rgba.characters]
    split
    · decide
    · simp [newline_notMem_digits]
  simpa [quotedColor, Rgba.text, String.toList_append] using characters

end Reading

section Steps

variable {tools : Tools} {drawing after : Drawing} {call : Call} {outcome : Outcome}
  {held : List PaintTokens}

theorem PaintTokens.track_inner {written : String} (plain : call.Plain)
    (uncleared : call ≠ .clear) :
    track call outcome written held = held.modifyHead (·.read written) := by
  unfold track
  split
  · exact (plain _ rfl).elim
  · exact (plain _ rfl).elim
  · exact (uncleared rfl).elim
  · rfl

theorem PaintTokens.track_failed {written : String} {failure : Failure}
    (uncleared : call ≠ .clear) :
    track call (.failed failure) written held = held.modifyHead (·.read written) := by
  unfold track
  split
  · cases ‹Outcome.failed failure = Outcome.done›
  · cases ‹Outcome.failed failure = Outcome.done›
  · exact (uncleared rfl).elim
  · rfl

theorem Edit.OfPaint.paint_other {context : Context} {side other : Side} {edit : Edit}
    (ofPaint : edit.OfPaint context side) (apart : other ≠ side) :
    (edit.change context).paint other = context.paint other := by
  cases ofPaint <;> exact context.paint_setPaint_other apart _

theorem Edit.OfPaint.word {context : Context} {side : Side} {edit : Edit}
    (ofPaint : edit.OfPaint context side) :
    edit.word = side.word ∨ edit.word = side.word ++ "-opacity" := by
  cases ofPaint with
  | color color => exact .inl rfl
  | pattern id => exact .inl rfl
  | opacity opacity => exact .inr rfl

/-- What an edit of a paint writes keeps the tokens up with the context. -/
theorem Edit.OfPaint.matches {context : Context} {side : Side} {edit : Edit}
    {tokens : PaintTokens} {spelling gap : String} (ofPaint : edit.OfPaint context side)
    (matched : tokens.Match context) (spelled : edit.spelling = some spelling)
    (spacing : IsSpacing gap.toList) :
    (tokens.read (gap ++ (edit.word ++ " " ++ spelling ++ "\n"))).Match (edit.change context) := by
  have line : (gap ++ (edit.word ++ " " ++ spelling ++ "\n")).toList =
      gap.toList ++ ((edit.word ++ " ").toList ++ (spelling ++ "\n").toList) := by
    simp only [String.toList_append, List.append_assoc]
  intro other
  by_cases apart : other = side
  · subst apart
    intro vacant
    cases ofPaint with
    | color color =>
        cases spelled
        rw [PaintTokens.read_color line spacing (newline_notMem_quotedColor _)]
        simp only [Context.paintEdit, Context.paint_setPaint]
        exact ⟨(color.couple context.alpha).a, rfl, .inr rfl⟩
    | pattern id =>
        simp only [Context.patternEdit, Context.paint_setPaint] at vacant
        cases vacant
    | opacity opacity =>
        simp only [Context.paintOpacityEdit, Context.paint_setPaint] at vacant
        obtain ⟨alpha, token, -⟩ := matched other vacant
        rw [PaintTokens.read_opacity line spacing]
        simp only [Context.paintOpacityEdit, Context.paint_setPaint]
        exact ⟨alpha, token, .inl trivial⟩
  · rw [PaintTokens.read_other line spacing ofPaint.word apart, ofPaint.paint_other apart]
    exact matched other

/-- The tokens of all contexts, kept up with a stack of contexts. -/
def PaintTokens.MatchAll (contexts : ContextStack) (held : List PaintTokens) : Prop :=
  List.Forall₂ (fun context tokens => tokens.Match context) contexts.toList held

theorem PaintTokens.matchAll_start : MatchAll {} [initial] := by
  refine .cons ?_ .nil
  intro side
  cases side with
  | fill => exact fun _ => ⟨255, rfl, .inr rfl⟩
  | stroke => exact fun _ => ⟨0, rfl, .inr rfl⟩

theorem PaintTokens.MatchAll.silent {contexts : ContextStack} {written : String}
    (matched : MatchAll contexts held) (silent : Silent written) :
    MatchAll contexts (held.modifyHead (·.read written)) := by
  cases held with
  | nil => exact matched
  | cons top rest =>
      rw [List.modifyHead_cons, read_silent silent]
      exact matched

theorem PaintTokens.MatchAll.modify {contexts : ContextStack} {change : Context → Context}
    {written : String} (matched : MatchAll contexts held)
    (top : ∀ tokens : PaintTokens, tokens.Match contexts.current →
      (tokens.read written).Match (change contexts.current)) :
    MatchAll (contexts.modify change) (held.modifyHead (·.read written)) := by
  rw [MatchAll, contexts.toList_eq_cons] at matched
  rw [MatchAll, contexts.toList_modify]
  cases matched with
  | cons first rest => exact .cons (top _ first) rest

theorem PaintTokens.MatchAll.adjust {contexts : ContextStack} {change : Context → Context}
    (matched : MatchAll contexts held) (kept : (Change.context change).KeepsPaints) :
    MatchAll (contexts.modify change) held := by
  rw [MatchAll, contexts.toList_eq_cons] at matched
  rw [MatchAll, contexts.toList_modify]
  cases matched with
  | cons first rest =>
      refine .cons ?_ rest
      intro side
      rw [kept contexts.current side]
      exact first side

theorem PaintTokens.MatchAll.push {contexts : ContextStack} (matched : MatchAll contexts held) :
    MatchAll contexts.push (held.take 1 ++ held) := by
  rw [MatchAll, contexts.toList_push]
  rw [MatchAll] at matched
  rw [contexts.toList_eq_cons] at matched ⊢
  cases matched with
  | cons first rest => exact .cons first (.cons first rest)

theorem PaintTokens.MatchAll.pop {contexts outer : ContextStack} {top : Context}
    (matched : MatchAll contexts held) (popped : contexts.pop? = some (top, outer)) :
    MatchAll outer held.tail := by
  rw [MatchAll, ContextStack.toList_of_pop? popped]
  rw [MatchAll, contexts.toList_eq_cons] at matched
  cases matched with
  | cons first rest => exact rest

theorem Bracket.Opens.unpainted {bracket : Bracket} {text : String} {change : Change}
    (opens : bracket.Opens drawing text change) : Unpainted text.toList := by
  have starts : "push ".toList <+: text.toList := by
    cases opens with
    | scope => exact ⟨"graphic-context".toList, rfl⟩
    | pattern vacant =>
        repeat refine starts_append ?_ _
        exact ⟨"pattern ".toList, rfl⟩
    | clipPath =>
        refine starts_append ?_ _
        exact ⟨"clip-path ".toList, rfl⟩
    | defs => exact ⟨"defs".toList, rfl⟩
  obtain ⟨more, equal⟩ := starts
  have push : Unpainted "push ".toList := by decide
  exact equal ▸ push.append more

theorem Bracket.Closes.unpainted {bracket : Bracket} {text : String} {change : Change}
    (closes : bracket.Closes drawing text change) : Unpainted text.toList := by
  cases closes <;> decide

/-- Every call but one that drops the program keeps the tokens up with the contexts. -/
theorem Effect.matchAll (effect : Effect tools drawing call after outcome)
    (kept : call ≠ .dropProgram) (matched : PaintTokens.MatchAll drawing.contexts held) :
    PaintTokens.MatchAll after.contexts
      (PaintTokens.track call outcome (drawing.added after) held) := by
  have idle : ∀ {next : Drawing}, next.buffer.text = drawing.buffer.text →
      Silent (drawing.added next) := by
    intro next same
    rw [Drawing.added_nothing same]
    exact silent_empty
  have uncleared : ∀ {plan}, call.plan? tools drawing = some plan → call ≠ .clear := by
    rintro plan planned rfl
    cases planned
  cases effect with
  | failed planned =>
      rw [PaintTokens.track_failed (uncleared planned)]
      exact matched.silent (idle rfl)
  | kept planned plain =>
      rw [PaintTokens.track_inner plain (uncleared planned)]
      exact matched.silent (idle rfl)
  | adjusted planned plain =>
      rw [PaintTokens.track_inner plain (uncleared planned)]
      rcases Call.plan_cases planned plain with ⟨side, edit, ofPaint, equal⟩ | unpainted
      · obtain ⟨unspelled, -⟩ := Edit.plan_adjust equal.symm
        cases ofPaint <;> cases unspelled
      · exact (matched.adjust unpainted).silent (idle rfl)
  | wrote planned plain inner usable =>
      rw [PaintTokens.track_inner plain (uncleared planned)]
      rcases Call.plan_cases planned plain with ⟨side, edit, ofPaint, equal⟩ | ⟨lead, keeps⟩
      · obtain ⟨spelling, spelled, rfl, rfl⟩ := Edit.plan_write equal.symm
        rw [List.foldl_cons, List.foldl_nil, Buffer.wrote,
          Change.added_apply _ (drawing.buffer.extended_grows _).text]
        exact matched.modify fun tokens shown =>
          ofPaint.matches shown spelled (isSpacing_spaces _)
      · obtain ⟨written, grows, silent⟩ := lead.operand? drawing.layout drawing.buffer
        rw [Change.added_apply _ grows.text]
        cases inner with
        | nothing | path state => exact matched.silent silent
        | context change => exact (matched.adjust keeps).silent silent
  | opened opens usable =>
      rw [Change.added_apply _ (drawing.buffer.extended_grows _).text]
      have silent := silent_line (drawing.buffer.indent - drawing.buffer.column) opens.unpainted
      cases opens with
      | scope => exact matched.push
      | pattern vacant | clipPath | defs => exact matched.silent silent
  | closed closes usable =>
      rw [Change.added_apply _ (drawing.buffer.indentOut.extended_grows _).text]
      have silent := silent_line
        (drawing.buffer.indentOut.indent - drawing.buffer.indentOut.column) closes.unpainted
      cases closes with
      | scope nested =>
          obtain ⟨top, outer, popped, -⟩ := ContextStack.pop?_of_nested nested
          simp only [Change.apply, popped]
          exact matched.pop popped
      | pattern opened | clipPath opened | defs opened => exact matched.silent silent
  | dropped => exact (kept rfl).elim
  | cleared => exact PaintTokens.matchAll_start
  | aborted flat => exact matched.silent (idle rfl)
  | refused poisoned => exact matched.silent (idle rfl)
  | rendered usable draws | misdrawn usable draws => exact matched.silent (idle rfl)
  | forgotten => exact matched.silent (idle rfl)

theorem Drawing.matchAll_start {settings : Settings} {canvas : Canvas} {requests : List Request}
    (kept : ∀ request ∈ requests, request.call ≠ .dropProgram) :
    PaintTokens.MatchAll ((start settings canvas).perform requests).contexts
      ((start settings canvas).paintTokens [.initial] requests) := by
  have steps : ∀ {drawing : Drawing} {held : List PaintTokens}, Reachable drawing →
      PaintTokens.MatchAll drawing.contexts held → PaintTokens.MatchAll
        (drawing.perform requests).contexts (drawing.paintTokens held requests) := by
    induction requests with
    | nil => exact fun _ matched => matched
    | cons request rest ih =>
        intro drawing held reachable matched
        obtain ⟨here, later⟩ := List.forall_mem_cons.mp kept
        have called : drawing.call request.tools request.call = drawing.serve request := rfl
        have next := (reachable.effect called).matchAll here matched
        exact ih later (reachable.of_serve request) next
  exact steps (.start settings canvas) PaintTokens.matchAll_start

end Steps

/-- A call that sets a paint to a color, which is given itself or by its name. -/
inductive Call.Paints (tools : Tools) (side : Side) (color : Rgba) : Call → Prop
  | value : Paints tools side color (.instruct (.setting (.paint side color)))
  | name {name : String} (resolved : Drawing.resolveColor tools name = .ok color) :
      Paints tools side color (.instruct (.setting (.paintName side name)))

/-- A token with the color of a paint, in whatever opacity. -/
def PaintToken.HasColor (held : PaintToken) (color : Rgba) : Prop :=
  ∃ alpha, color.withAlpha alpha ≠ .noPaint ∧ held.token = quotedColor (color.withAlpha alpha)

theorem Call.Paints.done {tools : Tools} {drawing after : Drawing} {side : Side} {color : Rgba}
    {call : Call} (paints : call.Paints tools side color)
    (called : drawing.call tools call = (after, .done)) :
    after.context.paint side = ⟨color.couple drawing.context.alpha, none⟩ := by
  have planned : call.plan? tools drawing = some (drawing.paintPlan side color) := by
    cases paints with
    | value => rfl
    | name resolved =>
        simp only [Call.plan?, Instruction.plan, Setting.plan, resolved]
        rfl
  rw [Drawing.call_eq_run planned] at called
  have done := Plan.run_done called
  simp only [Drawing.paintPlan, Drawing.update] at done
  split at done
  · rename_i elided
    cases done
    simp only [Bool.and_eq_true, Bool.not_eq_true', Bool.or_eq_false_iff, bne_eq_false_iff_eq,
      Option.isSome_eq_false_iff, Option.isNone_iff_eq_none] at elided
    obtain ⟨-, held, vacant⟩ := elided
    exact congrArg₂ Paint.mk held vacant
  · cases done with
    | write usable =>
        simp only [Change.apply, Drawing.context, ContextStack.current_modify]
        exact Context.paint_setPaint _ side _

/-- Filtering loses no paint but one.  Follow the tokens of the paints through a run in which the
program is not dropped.  Behind a call that sets a paint to a color that is not transparent, under
an opacity that is not zero, the token in force has that color.  The exception is opaque black over
no paint, if an opacity was set for that paint in between. -/
theorem painted_color_is_written {settings : Settings} {canvas : Canvas} {requests : List Request}
    {request : Request} {side : Side} {color : Rgba}
    (kept : ∀ earlier ∈ requests, earlier.call ≠ .dropProgram)
    (paints : request.call.Paints request.tools side color)
    (visible : color.isTransparent = false) :
    let start := Drawing.start settings canvas
    let drawing := start.perform requests
    drawing.context.alpha ≠ 0 → (drawing.serve request).2 = .done →
      ∃ (held : PaintTokens) (outer : List PaintTokens),
        start.paintTokens [.initial] (requests ++ [request]) = held :: outer ∧
          ((held side).HasColor color ∨
            (held side).token = "'none'" ∧ (held side).faded = true ∧
              color.withAlpha 255 = .black) := by
  intro start drawing shown done
  have called : drawing.call request.tools request.call = ((drawing.serve request).1, .done) :=
    Prod.ext rfl done
  have painted := paints.done called
  have all : ∀ earlier ∈ requests ++ [request], earlier.call ≠ .dropProgram := by
    refine List.forall_mem_append.mpr ⟨kept, List.forall_mem_singleton.mpr ?_⟩
    rcases request with ⟨tools, call⟩
    cases paints <;> nofun
  have matched : PaintTokens.MatchAll (start.perform (requests ++ [request])).contexts
      (start.paintTokens [.initial] (requests ++ [request])) := Drawing.matchAll_start all
  rw [Drawing.perform_append, PaintTokens.MatchAll, ContextStack.toList_eq_cons] at matched
  cases tracked : start.paintTokens [.initial] (requests ++ [request]) with
  | nil =>
      rw [tracked] at matched
      cases matched
  | cons held outer =>
      rw [tracked] at matched
      have inForce : (held side).Matches ((drawing.serve request).1.context.paint side) :=
        (List.forall₂_cons.mp matched).1 side
      rw [painted, Rgba.couple, visible, if_neg Bool.false_ne_true] at inForce
      obtain ⟨alpha, token, current⟩ := inForce rfl
      refine ⟨held, outer, rfl, ?_⟩
      by_cases blank : color.withAlpha alpha = .noPaint
      · have black : color.withAlpha 255 = .black := congrArg (·.withAlpha 255) blank
        refine .inr ⟨?_, ?_, black⟩
        · exact token.trans (congrArg quotedColor blank)
        · rcases current with faded | rfl
          · exact faded
          · exact (shown (congrArg Rgba.a blank)).elim
      · exact .inl ⟨alpha, blank, token⟩

/-- A fill that is left out because an opacity has led to the same color. -/
theorem painted_color_is_written_before_opacity :
    let set (setting : Setting) : Request := ⟨{}, .instruct (.setting setting)⟩
    let red : Rgba := ⟨255, 0, 0, 255⟩
    let start := Drawing.start {} ⟨64, 64, .empty⟩
    let requests := [set (.paint .fill red), set (.opacity 0.5), set (.paintOpacity .fill 0.5)]
    let request := set (.paintName .fill "red")
    ((start.perform requests).serve request).1.program = (start.perform requests).program ∧
      ∃ (held : PaintTokens) (outer : List PaintTokens),
        start.paintTokens [.initial] (requests ++ [request]) = held :: outer ∧
          ((held .fill).HasColor red ∨
            (held .fill).token = "'none'" ∧ (held .fill).faded = true ∧
              red.withAlpha 255 = .black) := by
  intro set red start requests request
  have kept : ∀ earlier ∈ requests, earlier.call ≠ .dropProgram := by
    simp [requests, set]
  have paints : request.call.Paints request.tools .fill red := .name (by decide +kernel)
  have shown : (start.perform requests).context.alpha ≠ 0 := by decide +kernel
  have done : ((start.perform requests).serve request).2 = .done := by decide +kernel
  exact ⟨by decide +kernel, painted_color_is_written kept paints rfl shown done⟩

theorem PaintToken.not_hasColor_none {held : PaintToken} {color : Rgba}
    (none : held.token = "'none'") : ¬ held.HasColor color := by
  rintro ⟨alpha, visible, token⟩
  have isNone : (color.withAlpha alpha).isNone = false := by simpa [Rgba.isNone] using visible
  have second := congrArg (fun text : String => text.toList[1]?) (none.symm.trans token)
  simp [quotedColor, Rgba.text, Rgba.characters, isNone] at second

/-- Opaque black is left out over no paint that an opacity was set for. -/
theorem painted_black_is_lost :
    let set (setting : Setting) : Request := ⟨{}, .instruct (.setting setting)⟩
    let start := Drawing.start {} ⟨64, 64, .empty⟩
    let requests := [set (.paintOpacity .stroke 1), set (.paint .stroke .black)]
    start.outcomes requests = [.done, .done] ∧
      (start.perform requests).context.alpha = 255 ∧
      (start.perform requests).program = "stroke-opacity 1\n" ∧
      ∃ held : PaintTokens, start.paintTokens [.initial] requests = [held] ∧
        ¬ (held .stroke).HasColor .black := by
  intro set start requests
  refine ⟨by decide +kernel, by decide +kernel, by decide +kernel, _, rfl, ?_⟩
  exact PaintToken.not_hasColor_none (by decide +kernel)

end Quill
