import Quill.Number.Significant

/-!
# The shape of finite numbers

The text of a finite number has a sign if it is negative, then digits, then a point with more
digits if it has a fraction, then an exponent with its own sign if it is far from one.
-/

namespace Quill.Number

/-- A double that is neither infinite nor undefined. -/
def isFinite (value : Float) : Bool :=
  match Reading.of value with
  | .finite _ => true
  | .undefined | .infinite _ => false

structure IsDigits (characters : List Char) : Prop where
  nonempty : characters ≠ []
  isDigit : ∀ character ∈ characters, character.isDigit

/-- The digits behind the point, with the point, if there are any. -/
inductive IsFraction : List Char → Prop
  | whole : IsFraction []
  | point {digits : List Char} (isDigits : IsDigits digits) : IsFraction ('.' :: digits)

/-- The exponent with its mark, if there is one. -/
inductive IsExponent : List Char → Prop
  | positional : IsExponent []
  | up {digits : List Char} (isDigits : IsDigits digits) : IsExponent ('e' :: '+' :: digits)
  | down {digits : List Char} (isDigits : IsDigits digits) : IsExponent ('e' :: '-' :: digits)

inductive IsMagnitude : List Char → Prop
  | parts {whole fraction exponent : List Char} (isWhole : IsDigits whole)
      (isFraction : IsFraction fraction) (isExponent : IsExponent exponent) :
      IsMagnitude (whole ++ (fraction ++ exponent))

/-- A magnitude with or without a minus sign. -/
inductive IsNumeral : List Char → Prop
  | positive {magnitude : List Char} (isMagnitude : IsMagnitude magnitude) : IsNumeral magnitude
  | negative {magnitude : List Char} (isMagnitude : IsMagnitude magnitude) :
      IsNumeral ('-' :: magnitude)

section Parts

variable {whole fraction exponent digits magnitude : List Char} {numeral : Numeral}

theorem mem_of_mem_dropTrailingZeros {character : Char}
    (member : character ∈ dropTrailingZeros digits) : character ∈ digits := by
  rw [dropTrailingZeros, List.mem_reverse] at member
  exact List.mem_reverse.mp (List.dropWhile_sublist _ |>.subset member)

theorem isDigits_decimalDigits (number : Nat) : IsDigits (decimalDigits number) :=
  ⟨Nat.toDigits_ne_nil, fun _ => Nat.isDigit_of_mem_toDigits (by decide) (by decide)⟩

theorem isDigits_zero : IsDigits ['0'] :=
  ⟨List.cons_ne_nil _ _, List.forall_mem_singleton.mpr (by decide)⟩

theorem isExponent_signedExponent (exponent : Int) : IsExponent (signedExponent exponent) := by
  have digits : IsDigits (if (decimalDigits exponent.natAbs).length < 2
      then '0' :: decimalDigits exponent.natAbs else decimalDigits exponent.natAbs) := by
    have plain := isDigits_decimalDigits exponent.natAbs
    split
    · refine ⟨List.cons_ne_nil _ _, ?_⟩
      intro character member
      rcases List.mem_cons.mp member with rfl | later
      · decide
      · exact plain.isDigit character later
    · exact plain
  rw [signedExponent]
  by_cases negative : exponent < 0
  · rw [if_pos negative]
    exact .down digits
  · rw [if_neg negative]
    exact .up digits

/-- Joining with a point leaves out the point of an empty fraction. -/
theorem isMagnitude_joinPoint (isWhole : IsDigits whole)
    (isDigit : ∀ character ∈ fraction, character.isDigit) (isExponent : IsExponent exponent) :
    IsMagnitude (joinPoint whole fraction ++ exponent) := by
  cases fraction with
  | nil => exact .parts isWhole .whole isExponent
  | cons first rest =>
      have joined : joinPoint whole (first :: rest) ++ exponent =
          whole ++ ('.' :: (first :: rest) ++ exponent) := by
        simp [joinPoint]
      rw [joined]
      exact .parts isWhole (.point ⟨List.cons_ne_nil _ _, isDigit⟩) isExponent

theorem isMagnitude_positional (isWhole : IsDigits whole)
    (isDigit : ∀ character ∈ fraction, character.isDigit) :
    IsMagnitude (joinPoint whole fraction) := by
  have joined := isMagnitude_joinPoint isWhole isDigit .positional
  rwa [List.append_nil] at joined

theorem IsMagnitude.leading (isMagnitude : IsMagnitude magnitude) :
    ∃ first others, magnitude = first :: others ∧ first.isDigit := by
  cases isMagnitude with
  | parts isWhole isFraction isExponent =>
      obtain ⟨first, others, rfl⟩ := List.exists_cons_of_ne_nil isWhole.nonempty
      exact ⟨first, _, rfl, isWhole.isDigit first List.mem_cons_self⟩

/-- In positional notation at least one digit stands before the point. -/
theorem Numeral.isDigits_positional (isDigits : IsDigits numeral.digits) :
    IsDigits numeral.positional.1 ∧
      ∀ character ∈ numeral.positional.2, character.isDigit := by
  have zeros : ∀ {count character}, character ∈ List.replicate count '0' → character.isDigit := by
    intro count character member
    rw [List.eq_of_mem_replicate member]
    decide
  rw [positional]
  split
  · refine ⟨isDigits_zero, ?_⟩
    intro character member
    rcases List.mem_append.mp member with zero | digit
    · exact zeros zero
    · exact isDigits.isDigit character digit
  · refine ⟨⟨?_, ?_⟩, ?_⟩
    · intro empty
      have none := (List.append_eq_nil_iff.mp empty).1
      rw [List.take_eq_nil_iff] at none
      exact none.elim (fun zero => nomatch zero) isDigits.nonempty
    · intro character member
      rcases List.mem_append.mp member with digit | zero
      · exact isDigits.isDigit character (List.mem_of_mem_take digit)
      · exact zeros zero
    · exact fun character member => isDigits.isDigit character (List.mem_of_mem_drop member)

theorem isDigit_lastDigits (count number : Nat) :
    ∀ character ∈ lastDigits count number, character.isDigit := by
  induction count generalizing number with
  | zero => exact fun character member => by cases member
  | succ count ih =>
      refine List.forall_mem_append.mpr ⟨ih (number / 10), List.forall_mem_singleton.mpr ?_⟩
      have digits : ∀ digit < 10, (Nat.digitChar digit).isDigit := by decide
      exact digits (number % 10) (Nat.mod_lt _ (by decide))

theorem Numeral.isMagnitude_scientific (isDigits : IsDigits numeral.digits) :
    IsMagnitude numeral.scientific := by
  refine isMagnitude_joinPoint ⟨?_, ?_⟩ ?_ (isExponent_signedExponent _)
  · simpa using isDigits.nonempty
  · exact fun character member => isDigits.isDigit character (List.mem_of_mem_take member)
  · intro character member
    exact isDigits.isDigit character (List.mem_of_mem_drop (mem_of_mem_dropTrailingZeros member))

theorem isMagnitude_generalQuotient (count numerator denominator : Nat) :
    IsMagnitude (generalQuotient count numerator denominator) := by
  simp only [generalQuotient]
  split
  · exact Numeral.isMagnitude_scientific (isDigits_decimalDigits _)
  · refine isMagnitude_positional (isDigits_decimalDigits _) fun character member => ?_
    exact isDigit_lastDigits _ _ character (mem_of_mem_dropTrailingZeros member)

theorem Binary.isNumeral_general (count : Nat) (value : Binary) :
    IsNumeral (value.general count) := by
  have signed : ∀ {digits : List Char}, IsMagnitude digits →
      IsNumeral ((if value.negative then ['-'] else []) ++ digits) := by
    intro digits isMagnitude
    split
    · exact .negative isMagnitude
    · exact .positive isMagnitude
  rw [general]
  split
  · exact signed (.parts isDigits_zero .whole .positional)
  · exact signed (isMagnitude_generalQuotient ..)

end Parts

/-- The text of a finite coordinate is a numeral. -/
theorem isNumeral_coordinate {value : Float} (finite : isFinite value) :
    IsNumeral (coordinate value).toList := by
  rw [isFinite] at finite
  rw [coordinate, significant]
  split
  · rename_i undefined
    rw [undefined] at finite
    cases finite
  · rename_i infinite
    rw [infinite] at finite
    cases finite
  · rw [String.toList_ofList]
    exact Binary.isNumeral_general ..

end Quill.Number
