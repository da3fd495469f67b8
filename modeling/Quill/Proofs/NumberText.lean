import Quill.Proofs.NumberShape

/-!
# Characters of number texts

A number that is rounded to significant digits, be it finite or not, is written in a small set
of characters.  It is never empty, and it starts with a digit, a minus sign or the first letter
of a word for what is not finite.  This is all that a reader of number texts has to know to find
where they begin and end.
-/

namespace Quill.Number

/-- The characters that finite numbers are written with. -/
def isPlain (character : Char) : Bool :=
  character.isDigit || ['-', '+', '.', 'e'].contains character

/-- The characters that numbers are written with. -/
def isPrinted (character : Char) : Bool :=
  character.isDigit || ['-', '+', '.', 'e', 'n', 'a', 'i', 'f'].contains character

/-- The characters that a number may start with. -/
def isLeading (character : Char) : Bool :=
  character.isDigit || ['-', 'n', 'i'].contains character

/-- A text that may be that of a number. -/
structure Written (characters : List Char) : Prop where
  printed : ∀ character ∈ characters, isPrinted character
  leading : ∃ first rest, characters = first :: rest ∧ isLeading first

theorem isPlain_of_isDigit {character : Char} (digit : character.isDigit) :
    isPlain character := by
  rw [isPlain, digit, Bool.true_or]

theorem isPrinted_of_isPlain {character : Char} (plain : isPlain character) :
    isPrinted character := by
  rw [isPlain, Bool.or_eq_true, List.contains_iff_mem] at plain
  rw [isPrinted, Bool.or_eq_true, List.contains_iff_mem]
  refine plain.imp_right fun mark => ?_
  exact (List.sublist_append_left ['-', '+', '.', 'e'] ['n', 'a', 'i', 'f']).subset mark

section Shapes

variable {digits fraction exponent magnitude numeral : List Char}

theorem IsDigits.plain (isDigits : IsDigits digits) : ∀ character ∈ digits, isPlain character :=
  fun character member => isPlain_of_isDigit (isDigits.isDigit character member)

theorem IsFraction.plain (isFraction : IsFraction fraction) :
    ∀ character ∈ fraction, isPlain character := by
  cases isFraction with
  | whole => nofun
  | point isDigits => exact List.forall_mem_cons.mpr ⟨by decide, isDigits.plain⟩

theorem IsExponent.plain (isExponent : IsExponent exponent) :
    ∀ character ∈ exponent, isPlain character := by
  cases isExponent with
  | positional => nofun
  | up isDigits | down isDigits =>
      exact List.forall_mem_cons.mpr
        ⟨by decide, List.forall_mem_cons.mpr ⟨by decide, isDigits.plain⟩⟩

theorem IsMagnitude.plain (isMagnitude : IsMagnitude magnitude) :
    ∀ character ∈ magnitude, isPlain character := by
  cases isMagnitude with
  | parts isWhole isFraction isExponent =>
      intro character member
      rcases List.mem_append.mp member with whole | behind
      · exact isWhole.plain character whole
      · rcases List.mem_append.mp behind with fraction | exponent
        · exact isFraction.plain character fraction
        · exact isExponent.plain character exponent

theorem IsNumeral.plain (isNumeral : IsNumeral numeral) :
    ∀ character ∈ numeral, isPlain character := by
  cases isNumeral with
  | positive isMagnitude => exact isMagnitude.plain
  | negative isMagnitude => exact List.forall_mem_cons.mpr ⟨by decide, isMagnitude.plain⟩

theorem IsNumeral.written (isNumeral : IsNumeral numeral) : Written numeral := by
  refine ⟨fun character member => isPrinted_of_isPlain (isNumeral.plain character member), ?_⟩
  cases isNumeral with
  | positive isMagnitude =>
      obtain ⟨first, others, equal, digit⟩ := isMagnitude.leading
      exact ⟨first, others, equal, by rw [isLeading, digit, Bool.true_or]⟩
  | negative isMagnitude => exact ⟨'-', _, rfl, by decide⟩

end Shapes

/-- Every text of a double is one that may be that of a number. -/
theorem significant_written (count : Nat) (value : Float) :
    Written (significant count value).toList := by
  rw [significant]
  split
  · exact ⟨List.all_eq_true.mp (by decide), 'n', _, rfl, by decide⟩
  · split
    · exact ⟨List.all_eq_true.mp (by decide), '-', _, rfl, by decide⟩
    · exact ⟨List.all_eq_true.mp (by decide), 'i', _, rfl, by decide⟩
  · rw [String.toList_ofList]
    exact (Binary.isNumeral_general ..).written

end Quill.Number
