import Quill.Proofs.NumberShape
import Quill.Proofs.PathReading

/-!
# The grammar of SVG path data

In SVG path data a number goes as far as it can, a flag is one digit, and between two arguments
stand spaces, a comma or nothing.  Arguments behind a whole command that has no letter belong to
another command of the same kind, except that behind a move they belong to a line.
-/

namespace Quill.Path.Grammar

open Lexing

/-- Leave out white space with at most one comma in it. -/
def separate (text : List Char) : List Char :=
  match skip text with
  | ',' :: rest => skip rest
  | rest => rest

/-- Split off the digits at the start. -/
def splitDigits (text : List Char) : List Char × List Char :=
  (text.takeWhile Char.isDigit, text.dropWhile Char.isDigit)

def splitSign : List Char → List Char × List Char
  | '-' :: rest => (['-'], rest)
  | '+' :: rest => (['+'], rest)
  | text => ([], text)

/-- Split off a point and the digits behind it. -/
def splitFraction : List Char → List Char × List Char
  | '.' :: rest => ('.' :: (splitDigits rest).1, (splitDigits rest).2)
  | text => ([], text)

/-- Split off an exponent.  A mark that no digits follow is none. -/
def splitExponent : List Char → List Char × List Char
  | [] => ([], [])
  | mark :: rest =>
    let (sign, behind) := splitSign rest
    let (digits, last) := splitDigits behind
    if (mark = 'e' ∨ mark = 'E') ∧ digits ≠ [] then (mark :: sign ++ digits, last)
    else ([], mark :: rest)

def number? (text : List Char) : Option (String × List Char) :=
  let (sign, unsigned) := splitSign text
  let (whole, behind) := splitDigits unsigned
  let (fraction, others) := splitFraction behind
  let (exponent, rest) := splitExponent others
  if whole = [] ∧ fraction.length ≤ 1 then none
  else some (String.ofList (sign ++ (whole ++ (fraction ++ exponent))), rest)

def flag? : List Char → Option (String × List Char)
  | '0' :: rest => some ("0", rest)
  | '1' :: rest => some ("1", rest)
  | _ => none

inductive Kind where
  | number
  | flag
  deriving DecidableEq, Repr

def argument? : Kind → List Char → Option (String × List Char)
  | .number => number?
  | .flag => flag?

/-- Read arguments of the given kinds with separators between them. -/
def arguments? : List Kind → List Char → Option (List String × List Char)
  | [], text => some ([], text)
  | [kind], text => (argument? kind text).map fun (argument, rest) => ([argument], rest)
  | kind :: kinds, text => do
    let (argument, rest) ← argument? kind text
    let (others, last) ← arguments? kinds (separate rest)
    some (argument :: others, last)

def kinds : Operation → List Kind
  | .none | .close => []
  | .horizontal | .vertical => [.number]
  | .move | .line | .smoothQuadratic => [.number, .number]
  | .quadratic | .smoothCurve => [.number, .number, .number, .number]
  | .curve => [.number, .number, .number, .number, .number, .number]
  | .arc => [.number, .number, .number, .flag, .flag, .number, .number]

/-- The command that arguments without a letter belong to behind another command. -/
def follower? (last : State) : Option State :=
  match last.operation with
  | .none | .close => none
  | .move => some ⟨.line, last.mode⟩
  | _ => some last

def complete? (current : State) (text : List Char) : Option (Meaning × List Char) :=
  (arguments? (kinds current.operation) text).map fun (arguments, rest) =>
    (⟨current.operation, current.mode, arguments⟩, rest)

/-- Read a command that stands behind another. -/
def command? (last : State) (text : List Char) : Option (Meaning × List Char) :=
  match skip text with
  | [] => none
  | first :: rest =>
    match ofLetter? first with
    | some current => complete? current (skip rest)
    | none => (follower? last).bind fun current => complete? current (separate text)

section Lengths

variable {text rest : List Char}

theorem length_separate_le (text : List Char) : (separate text).length ≤ text.length := by
  have skipped := length_skip_le text
  rw [separate]
  split
  · rename_i rest comma
    have behind := length_skip_le rest
    rw [comma, List.length_cons] at skipped
    omega
  · exact skipped

theorem splitDigits_append (text : List Char) :
    (splitDigits text).1 ++ (splitDigits text).2 = text :=
  List.takeWhile_append_dropWhile

theorem splitSign_append (text : List Char) : (splitSign text).1 ++ (splitSign text).2 = text := by
  fun_cases splitSign text <;> rfl

theorem splitFraction_append (text : List Char) :
    (splitFraction text).1 ++ (splitFraction text).2 = text := by
  fun_cases splitFraction text with
  | case1 rest => exact congrArg ('.' :: ·) (splitDigits_append rest)
  | case2 => rfl

theorem splitExponent_append (text : List Char) :
    (splitExponent text).1 ++ (splitExponent text).2 = text := by
  cases text with
  | nil => rfl
  | cons mark rest =>
      have sign := splitSign_append rest
      have digits := splitDigits_append (splitSign rest).2
      simp only [splitExponent]
      split
      · rw [List.append_assoc, digits, List.cons_append, sign]
      · rfl

/-- A number has at least one character, and what is read behind it is what is left. -/
theorem length_number? {argument : String} (read : number? text = some (argument, rest)) :
    rest.length < text.length := by
  have sign := congrArg List.length (splitSign_append text)
  have whole := congrArg List.length (splitDigits_append (splitSign text).2)
  have fraction := congrArg List.length
    (splitFraction_append (splitDigits (splitSign text).2).2)
  have exponent := congrArg List.length
    (splitExponent_append (splitFraction (splitDigits (splitSign text).2).2).2)
  simp only [List.length_append] at sign whole fraction exponent
  simp only [number?] at read
  split at read
  · cases read
  · rename_i some
    cases read
    by_cases none : (splitDigits (splitSign text).2).1 = []
    · have long : ¬ (splitFraction (splitDigits (splitSign text).2).2).1.length ≤ 1 :=
        fun short => some ⟨none, short⟩
      omega
    · have long := List.length_pos_of_ne_nil none
      omega

theorem length_argument? {kind : Kind} {argument : String}
    (read : argument? kind text = some (argument, rest)) : rest.length < text.length := by
  cases kind with
  | number => exact length_number? read
  | flag =>
      rw [argument?] at read
      revert read
      fun_cases flag? text with
      | case3 => exact nofun
      | _ =>
          intro read
          cases read
          exact Nat.lt_succ_self _

theorem length_arguments? {kinds : List Kind} {arguments : List String}
    (read : arguments? kinds text = some (arguments, rest)) :
    rest.length + kinds.length ≤ text.length := by
  induction kinds generalizing text arguments with
  | nil =>
      cases read
      exact le_rfl
  | cons kind kinds ih =>
      cases kinds with
      | nil =>
          obtain ⟨⟨argument, last⟩, first, same⟩ := Option.map_eq_some_iff.mp read
          cases same
          exact length_argument? first
      | cons next kinds =>
          simp only [arguments?, Option.bind_eq_bind, Option.bind_eq_some_iff] at read
          obtain ⟨⟨argument, behind⟩, first, ⟨others, last⟩, later, same⟩ := read
          cases same
          have shorter := length_argument? first
          have separated := length_separate_le behind
          have further : last.length + (next :: kinds).length ≤ (separate behind).length := ih later
          show last.length + ((next :: kinds).length + 1) ≤ text.length
          omega

theorem length_complete? {current : State} {meaning : Meaning}
    (read : complete? current text = some (meaning, rest)) :
    rest.length + (kinds current.operation).length ≤ text.length := by
  obtain ⟨⟨arguments, last⟩, first, same⟩ := Option.map_eq_some_iff.mp read
  cases same
  exact length_arguments? first

theorem kinds_follower? {last current : State} (follows : follower? last = some current) :
    0 < (kinds current.operation).length := by
  rcases last with ⟨operation, mode⟩
  cases operation <;> cases follows <;> exact Nat.succ_pos _

theorem length_command? {last : State} {meaning : Meaning}
    (read : command? last text = some (meaning, rest)) : rest.length < text.length := by
  have skipped := length_skip_le text
  rw [command?] at read
  split at read
  · cases read
  rename_i first behind begins
  split at read
  · have shorter := length_complete? read
    have further := length_skip_le behind
    rw [begins, List.length_cons] at skipped
    omega
  · obtain ⟨current, follows, read⟩ := Option.bind_eq_some_iff.mp read
    have shorter := length_complete? read
    have some := kinds_follower? follows
    have separated := length_separate_le text
    omega

end Lengths

/-- Read the commands that stand behind another. -/
def commands? (last : State) (text : List Char) : Option (List Meaning) :=
  if skip text = [] then some []
  else
    match _read : command? last text with
    | none => none
    | some (meaning, rest) =>
      (commands? ⟨meaning.operation, meaning.mode⟩ rest).map (meaning :: ·)
termination_by text.length
decreasing_by exact length_command? _read

/-- Read path data as a whole, which begins with a move unless it is empty. -/
def data? (text : List Char) : Option (List Meaning) :=
  match commands? {} text with
  | some (first :: rest) => if first.operation = .move then some (first :: rest) else none
  | read => read

end Quill.Path.Grammar
