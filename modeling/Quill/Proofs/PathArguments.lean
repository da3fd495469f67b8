import Quill.Proofs.PathGrammar

/-!
# Reading arguments of path data

The text of a finite number is a number by the grammar of path data, and it ends where a space, a
newline or a comma follows.  So arguments with spaces and commas between them are read back one by
one.
-/

namespace Quill.Path

namespace Grammar

open Lexing Number

variable {text rest digits fraction exponent magnitude numeral : List Char}

/-- A text that does not go on with an argument. -/
def Stops (text : List Char) : Prop :=
  ∀ character ∈ text.head?, character = ' ' ∨ character = '\n' ∨ character = ','

section Numbers

theorem splitDigits_of_isDigit (isDigit : ∀ character ∈ digits, character.isDigit)
    (ends : ∀ character ∈ rest.head?, character.isDigit = false) :
    splitDigits (digits ++ rest) = (digits, rest) := by
  rw [splitDigits, List.takeWhile_append_of_pos isDigit, List.dropWhile_append_of_pos isDigit]
  cases rest with
  | nil => rw [List.takeWhile_nil, List.append_nil, List.dropWhile_nil]
  | cons first others =>
      have other : ¬ first.isDigit = true := by simp [ends first rfl]
      rw [List.takeWhile_cons_of_neg other, List.append_nil, List.dropWhile_cons_of_neg other]

theorem Stops.not_isDigit (stops : Stops rest) :
    ∀ character ∈ rest.head?, character.isDigit = false := by
  intro character head
  rcases stops character head with rfl | rfl | rfl <;> rfl

theorem splitExponent_of_stops (stops : Stops rest) : splitExponent rest = ([], rest) := by
  cases rest with
  | nil => rfl
  | cons first others =>
      rcases stops first rfl with rfl | rfl | rfl <;> simp [splitExponent]

theorem splitExponent_of_isExponent (isExponent : IsExponent exponent) (stops : Stops rest) :
    splitExponent (exponent ++ rest) = (exponent, rest) := by
  cases isExponent with
  | positional => exact splitExponent_of_stops stops
  | up isDigits | down isDigits =>
      simp [splitExponent, splitSign, isDigits.nonempty,
        splitDigits_of_isDigit isDigits.isDigit stops.not_isDigit]

/-- Behind digits an exponent or the end of the number ends them. -/
theorem not_isDigit_exponent (isExponent : IsExponent exponent) (stops : Stops rest) :
    ∀ character ∈ (exponent ++ rest).head?, character.isDigit = false ∧ character ≠ '.' := by
  intro character head
  cases isExponent with
  | positional => rcases stops character head with rfl | rfl | rfl <;> exact ⟨rfl, by decide⟩
  | up isDigits | down isDigits =>
      cases head
      exact ⟨rfl, by decide⟩

theorem splitFraction_of_isFraction (isFraction : IsFraction fraction)
    (ends : ∀ character ∈ rest.head?, character.isDigit = false ∧ character ≠ '.') :
    splitFraction (fraction ++ rest) = (fraction, rest) := by
  cases isFraction with
  | whole =>
      cases rest with
      | nil => rfl
      | cons first others =>
          have other := (ends first rfl).2
          simp only [List.nil_append]
          unfold splitFraction
          split
          · rename_i same
            exact (other (List.cons.inj same).1).elim
          · rfl
  | point isDigits =>
      rw [List.cons_append, splitFraction, splitDigits_of_isDigit isDigits.isDigit]
      exact fun character head => (ends character head).1

theorem not_isDigit_fraction (isFraction : IsFraction fraction)
    (ends : ∀ character ∈ rest.head?, character.isDigit = false ∧ character ≠ '.') :
    ∀ character ∈ (fraction ++ rest).head?, character.isDigit = false := by
  intro character head
  cases isFraction with
  | whole => exact (ends character head).1
  | point isDigits =>
      cases head
      rfl

/-- Behind its sign, a number is read as far as it goes. -/
theorem number?_of_splitSign {sign : List Char}
    (signed : splitSign text = (sign, magnitude ++ rest))
    (isMagnitude : IsMagnitude magnitude) (stops : Stops rest) :
    number? text = some (String.ofList (sign ++ magnitude), rest) := by
  cases isMagnitude with
  | @parts whole fraction exponent isWhole isFraction isExponent =>
      have behind := not_isDigit_exponent isExponent stops
      have digits := splitDigits_of_isDigit isWhole.isDigit
        (not_isDigit_fraction isFraction behind)
      have point := splitFraction_of_isFraction isFraction behind
      have mark := splitExponent_of_isExponent isExponent stops
      simp only [List.append_assoc] at signed
      have some : ¬ (whole = [] ∧ fraction.length ≤ 1) := fun none => isWhole.nonempty none.1
      simp only [number?, signed, digits, point, mark, if_neg some]

theorem number?_numeral (isNumeral : IsNumeral numeral) (stops : Stops rest) :
    number? (numeral ++ rest) = some (String.ofList numeral, rest) := by
  cases isNumeral with
  | @negative magnitude isMagnitude =>
      have signed : splitSign ('-' :: magnitude ++ rest) = (['-'], magnitude ++ rest) := rfl
      exact number?_of_splitSign signed isMagnitude stops
  | positive isMagnitude =>
      have signed : splitSign (numeral ++ rest) = ([], numeral ++ rest) := by
        obtain ⟨first, others, equal, digit⟩ := isMagnitude.leading
        rw [equal, List.cons_append]
        unfold splitSign
        split
        · rename_i minus
          rw [(List.cons.inj minus).1] at digit
          cases digit
        · rename_i plus
          rw [(List.cons.inj plus).1] at digit
          cases digit
        · rfl
      exact number?_of_splitSign signed isMagnitude stops

end Numbers

section Arguments

variable {kind next : Kind} {kinds : List Kind} {argument : String} {arguments : List String}

/-- A text that an argument of a kind may have. -/
inductive Fits : Kind → String → Prop
  | number {argument : String} (isNumeral : IsNumeral argument.toList) : Fits .number argument
  | flag (value : Bool) : Fits .flag (Path.flag value)

/-- Arguments of the given kinds with a space or a comma between each two. -/
inductive Spelled : List Kind → List String → List Char → Prop
  | last {kind : Kind} {argument : String} (fits : Fits kind argument) :
      Spelled [kind] [argument] argument.toList
  | more {kind next : Kind} {kinds : List Kind} {argument : String} {arguments : List String}
      {separator : Char} {text : List Char} (fits : Fits kind argument)
      (separates : separator = ' ' ∨ separator = ',')
      (others : Spelled (next :: kinds) arguments text) :
      Spelled (kind :: next :: kinds) (argument :: arguments)
        (argument.toList ++ separator :: text)

theorem Fits.leading (fits : Fits kind argument) :
    ∃ first others, argument.toList = first :: others ∧ isLeading first := by
  cases fits with
  | number isNumeral => exact isNumeral.written.leading
  | flag value => cases value <;> exact ⟨_, _, rfl, rfl⟩

theorem Spelled.leading (spelled : Spelled kinds arguments text) :
    ∃ first others, text = first :: others ∧ isLeading first := by
  cases spelled with
  | last fits => exact fits.leading
  | more fits separates others =>
      obtain ⟨first, rest, equal, leads⟩ := fits.leading
      exact ⟨first, _, by rw [equal]; rfl, leads⟩

theorem ne_comma_of_isLeading {first : Char} (leads : isLeading first) : first ≠ ',' := by
  rintro rfl
  cases leads

theorem separate_of_leading {first : Char} (leads : isLeading first) {gap : List Char}
    (spacing : IsSpacing gap) (others : List Char) :
    separate (gap ++ first :: others) = first :: others := by
  rw [separate, skip_spacing spacing, (solid_of_isLeading leads others).skip]
  split
  · rename_i comma
    exact (ne_comma_of_isLeading leads (List.cons.inj comma).1).elim
  · rfl

theorem separate_separator {separator first : Char} (separates : separator = ' ' ∨ separator = ',')
    (leads : isLeading first) (others : List Char) :
    separate (separator :: first :: others) = first :: others := by
  rcases separates with rfl | rfl
  · exact separate_of_leading leads (List.forall_mem_singleton.mpr (.inl rfl)) others
  · exact (solid_of_isLeading leads others).skip

theorem argument?_fits (fits : Fits kind argument) (stops : Stops rest) :
    argument? kind (argument.toList ++ rest) = some (argument, rest) := by
  cases fits with
  | number isNumeral =>
      rw [argument?, number?_numeral isNumeral stops, String.ofList_toList]
  | flag value => cases value <;> rfl

/-- Spelled arguments are read back. -/
theorem arguments?_spelled (spelled : Spelled kinds arguments text) (stops : Stops rest) :
    arguments? kinds (text ++ rest) = some (arguments, rest) := by
  induction spelled with
  | last fits => rw [arguments?, argument?_fits fits stops, Option.map_some]
  | @more kind next kinds argument arguments separator text fits separates others ih =>
      obtain ⟨first, behind, rfl, leads⟩ := others.leading
      have ends : Stops (separator :: (first :: behind ++ rest)) := by
        intro character head
        cases head
        exact separates.imp_right .inr
      rw [List.append_assoc, List.cons_append]
      simp only [arguments?, argument?_fits fits ends, Option.bind_eq_bind, Option.bind_some]
      rw [List.cons_append, separate_separator separates leads, ← List.cons_append, ih]
      rfl

end Arguments

end Grammar

end Quill.Path
