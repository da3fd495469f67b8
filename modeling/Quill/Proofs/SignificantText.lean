import Quill.Proofs.DecimalText
import Quill.Proofs.DoubleRange
import Quill.Proofs.SignificantDigits

/-!
# Numbers with significant digits

The text of a double is a numeral whose value is the double rounded to significant digits.  The
exponent of the rounded number decides the notation.  Trailing zeros of a fraction are left out,
which changes no value, and the text is as long as its digits with a sign, a point and an exponent
at most.
-/

namespace Quill.Number

open Json (Literal)

def EndsInDigit (text : List Char) : Prop :=
  ∃ last ∈ text.getLast?, last.isDigit

section Shapes

variable {digits magnitude front back : List Char}

theorem EndsInDigit.append (ends : EndsInDigit back) (front : List Char) :
    EndsInDigit (front ++ back) := by
  obtain ⟨last, member, digit⟩ := ends
  refine ⟨last, ?_, digit⟩
  rw [List.getLast?_append, Option.mem_def.mp member]
  rfl

theorem IsDigits.ends (isDigits : IsDigits digits) : EndsInDigit digits :=
  ⟨digits.getLast isDigits.nonempty, List.getLast?_eq_some_getLast isDigits.nonempty,
    isDigits.isDigit _ (List.getLast_mem isDigits.nonempty)⟩

theorem IsMagnitude.ends (isMagnitude : IsMagnitude magnitude) : EndsInDigit magnitude := by
  cases isMagnitude with
  | @parts whole fraction exponent isWhole isFraction isExponent =>
      cases isExponent with
      | positional =>
          rw [List.append_nil]
          cases isFraction with
          | whole =>
              rw [List.append_nil]
              exact isWhole.ends
          | point isDigits => exact (isDigits.ends.append ['.']).append whole
      | up isDigits => exact ((isDigits.ends.append ['e', '+']).append fraction).append whole
      | down isDigits => exact ((isDigits.ends.append ['e', '-']).append fraction).append whole

theorem IsNumeral.ends (isNumeral : IsNumeral digits) : EndsInDigit digits := by
  cases isNumeral with
  | positive isMagnitude => exact isMagnitude.ends
  | negative isMagnitude => exact isMagnitude.ends.append ['-']

theorem getLast?_dropTrailingZeros (digits : List Char) :
    (dropTrailingZeros digits).getLast? ≠ some '0' := by
  rw [dropTrailingZeros, List.getLast?_reverse]
  intro last
  have first := List.head?_dropWhile_not (· == '0') digits.reverse
  rw [last] at first
  cases first

theorem digitsValue_lastDigits (whole : List Char) (count number : ℕ) :
    digitsValue (whole ++ lastDigits count number) =
      digitsValue whole * 10 ^ count + number % 10 ^ count := by
  induction count generalizing number with
  | zero => simp [lastDigits, Nat.mod_one]
  | succ count ih =>
      have digit : number % 10 < 10 := Nat.mod_lt _ (by decide)
      have step : digitsValue (whole ++ lastDigits count (number / 10) ++
          [Nat.digitChar (number % 10)]) =
          10 * digitsValue (whole ++ lastDigits count (number / 10)) + number % 10 := by
        rw [digitsValue_eq, Nat.ofDigitChars_append,
          Nat.ofDigitChars_cons_digitChar_of_lt_ten digit, Nat.ofDigitChars_nil]
        rfl
      rw [lastDigits, ← List.append_assoc, step, ih, Nat.pow_succ, Nat.mul_comm (10 ^ count) 10,
        Nat.mod_mul]
      ring

end Shapes

section Trimming

variable {whole fraction : List Char}

/-- The literal of digits before and behind a point, without the zeros at the end of the latter. -/
def trimmedLiteral (negative : Bool) (whole fraction : List Char) (exponent : Option ℤ) :
    Literal where
  negative := negative
  whole := whole
  fraction :=
    if (dropTrailingZeros fraction).isEmpty then none else some (dropTrailingZeros fraction)
  exponent := exponent

variable (negative : Bool) (exponent : Option ℤ)

theorem joinPoint_trimmed (whole fraction : List Char) :
    joinPoint whole (dropTrailingZeros fraction) =
      whole ++ Literal.fractionText (trimmedLiteral negative whole fraction exponent).fraction := by
  rw [joinPoint, trimmedLiteral]
  split
  · exact (List.append_nil whole).symm
  · rfl

theorem getD_trimmed (whole fraction : List Char) :
    (trimmedLiteral negative whole fraction exponent).fraction.getD [] =
      dropTrailingZeros fraction := by
  rw [trimmedLiteral]
  split
  · exact (List.isEmpty_iff.mp ‹_›).symm
  · rfl

/-- The zeros that are left out change the count of digits behind the point and their value. -/
theorem quotient_trimmed (whole fraction : List Char) :
    (trimmedLiteral negative whole fraction exponent).quotient =
      digitsValue (whole ++ fraction) * 10 ^ (exponent.getD 0 - fraction.length) := by
  obtain ⟨count, split⟩ := dropTrailingZeros_append fraction
  have length : fraction.length = (dropTrailingZeros fraction).length + count := by
    conv_lhs => rw [split, List.length_append, List.length_replicate]
  have value : digitsValue (whole ++ fraction) =
      digitsValue (whole ++ dropTrailingZeros fraction) * 10 ^ count := by
    conv_lhs => rw [split, ← List.append_assoc, digitsValue_append_zeros]
  have place : exponent.getD 0 - ((dropTrailingZeros fraction).length : ℤ) =
      count + (exponent.getD 0 - fraction.length) := by
    rw [length]
    push_cast
    ring
  rw [Literal.quotient, getD_trimmed, value]
  change digitsValue (whole ++ dropTrailingZeros fraction) * (10 : ℚ) ^
    (exponent.getD 0 - ((dropTrailingZeros fraction).length : ℤ)) = _
  rw [place, zpow_add₀ (by norm_num), zpow_natCast]
  push_cast
  ring

theorem fraction_trimmed {digits : List Char} (isDigit : ∀ character ∈ fraction, character.isDigit)
    (held : digits ∈ (trimmedLiteral negative whole fraction exponent).fraction) :
    IsDigits digits ∧ digits.getLast? ≠ some '0' := by
  rw [trimmedLiteral] at held
  dsimp only at held
  split at held
  · cases held
  · rename_i nonempty
    cases held
    refine ⟨⟨fun empty => nonempty (List.isEmpty_iff.mpr empty), ?_⟩, getLast?_dropTrailingZeros _⟩
    exact fun character member => isDigit character (mem_of_mem_dropTrailingZeros member)

theorem legible_trimmed (isWhole : IsDigits whole)
    (leading : ¬ (1 < whole.length ∧ whole.head? = some '0'))
    (isDigit : ∀ character ∈ fraction, character.isDigit) :
    (trimmedLiteral negative whole fraction exponent).Legible :=
  ⟨isWhole, leading, fun _ held => (fraction_trimmed negative exponent isDigit held).1⟩

end Trimming

/-- The literal that rounded digits are written as, in the notation of their exponent. -/
def generalLiteral (negative : Bool) (count digits : ℕ) (exponent : ℤ) : Literal :=
  if exponent < -4 ∨ (count : ℤ) ≤ exponent then
    trimmedLiteral negative ((decimalDigits digits).take 1) ((decimalDigits digits).drop 1)
      (some exponent)
  else
    let decimals := ((count : ℤ) - 1 - exponent).toNat
    trimmedLiteral negative (decimalDigits (digits / 10 ^ decimals)) (lastDigits decimals digits)
      none

/-- The characters of an exponent, if there is one. -/
def exponentCharacters : Option ℤ → List Char
  | none => []
  | some exponent => signedExponent exponent

theorem signedExponent_eq (exponent : ℤ) :
    ∃ digits, signedExponent exponent = 'e' :: (if exponent < 0 then '-' else '+') :: digits ∧
      IsDigits digits ∧ 2 ≤ digits.length ∧ digitsValue digits = exponent.natAbs := by
  have plain := isDigits_decimalDigits exponent.natAbs
  have some := decimalDigits_length_pos exponent.natAbs
  refine ⟨_, rfl, ?_⟩
  split
  · refine ⟨⟨List.cons_ne_nil _ _, List.forall_mem_cons.mpr ⟨by decide, plain.isDigit⟩⟩, ?_, ?_⟩
    · rw [List.length_cons]
      omega
    · exact (digitsValue_zeros_append _ 1).trans (digitsValue_decimalDigits _)
  · exact ⟨plain, by omega, digitsValue_decimalDigits _⟩

theorem exponentOf?_exponentCharacters (exponent : Option ℤ) :
    Literal.exponentOf? (exponentCharacters exponent) = some exponent := by
  cases exponent with
  | none => rfl
  | some exponent =>
      obtain ⟨digits, written, isDigits, -, size⟩ := signedExponent_eq exponent
      rw [exponentCharacters, written]
      exact Literal.exponentOf?_digits isDigits size

section Rounded

variable {count digits : ℕ} {exponent : ℤ}

theorem length_digits (countPos : 0 < count) (least : 10 ^ (count - 1) ≤ digits)
    (most : digits < 10 ^ count) : (decimalDigits digits).length = count := by
  refine le_antisymm ((length_decimalDigits_le_iff countPos).mpr most) ?_
  by_contra short
  have below := lt_ten_pow_length digits
  have shorter : 10 ^ (decimalDigits digits).length ≤ 10 ^ (count - 1) :=
    Nat.pow_le_pow_right (by decide) (by omega)
  omega

theorem legible_generalLiteral (negative : Bool) (count digits : ℕ) (exponent : ℤ) :
    (generalLiteral negative count digits exponent).Legible := by
  have written := isDigits_decimalDigits digits
  rw [generalLiteral]
  split
  · refine legible_trimmed _ _ ⟨?_, ?_⟩ ?_ ?_
    · simpa using written.nonempty
    · exact fun character member => written.isDigit character (List.mem_of_mem_take member)
    · rintro ⟨long, -⟩
      rw [List.length_take] at long
      omega
    · exact fun character member => written.isDigit character (List.mem_of_mem_drop member)
  · refine legible_trimmed _ _ (isDigits_decimalDigits _) ?_ (isDigit_lastDigits _ _)
    rintro ⟨long, zero⟩
    rcases Nat.eq_zero_or_pos (digits / 10 ^ ((count : ℤ) - 1 - exponent).toNat) with none | some
    · rw [none] at long
      exact absurd long (lt_irrefl 1)
    · exact head_decimalDigits some zero

theorem quotient_generalLiteral (negative : Bool) (countPos : 0 < count)
    (least : 10 ^ (count - 1) ≤ digits) (most : digits < 10 ^ count) :
    (generalLiteral negative count digits exponent).quotient =
      digits * 10 ^ (exponent + 1 - count) := by
  rw [generalLiteral]
  split
  · rw [quotient_trimmed, List.take_append_drop, digitsValue_decimalDigits, List.length_drop,
      length_digits countPos least most, Option.getD_some]
    congr 2
    omega
  · rw [quotient_trimmed, digitsValue_lastDigits, digitsValue_decimalDigits, length_lastDigits,
      Nat.div_add_mod']
    congr 2
    rw [Option.getD_none]
    omega

theorem scientific_generalLiteral {written : ℤ} (negative : Bool)
    (held : written ∈ (generalLiteral negative count digits exponent).exponent) :
    written = exponent ∧ (generalLiteral negative count digits exponent).whole.length = 1 := by
  rw [generalLiteral] at held ⊢
  split at held
  · rename_i scientific
    cases held
    rw [if_pos scientific]
    refine ⟨rfl, ?_⟩
    have some : 0 < (decimalDigits digits).length := decimalDigits_length_pos digits
    change ((decimalDigits digits).take 1).length = 1
    rw [List.length_take]
    omega
  · cases held

theorem positional_generalLiteral (negative : Bool) (count digits : ℕ) (exponent : ℤ) :
    (generalLiteral negative count digits exponent).exponent = none ↔
      -4 ≤ exponent ∧ exponent < count := by
  rw [generalLiteral]
  split
  · refine iff_of_false (fun none => by cases none) ?_
    omega
  · refine iff_of_true rfl ?_
    omega

theorem fraction_generalLiteral {written : List Char} (negative : Bool)
    (held : written ∈ (generalLiteral negative count digits exponent).fraction) :
    IsDigits written ∧ written.getLast? ≠ some '0' := by
  rw [generalLiteral] at held
  split at held
  · refine fraction_trimmed _ _ (fun character member => ?_) held
    exact (isDigits_decimalDigits digits).isDigit character (List.mem_of_mem_drop member)
  · exact fraction_trimmed _ _ (isDigit_lastDigits _ _) held

theorem generalQuotient_eq {numerator denominator : ℕ} (negative : Bool)
    (numeratorPos : 0 < numerator) (denominatorPos : 0 < denominator) (countPos : 0 < count)
    (rounds : roundSignificant count numerator denominator = (digits, exponent)) :
    let literal := generalLiteral negative count digits exponent
    generalQuotient count numerator denominator =
      literal.whole ++
        (Literal.fractionText literal.fraction ++ exponentCharacters literal.exponent) := by
  intro literal
  rw [generalQuotient, rounds]
  dsimp only [literal]
  rw [generalLiteral]
  split
  · rw [Numeral.scientific, joinPoint_trimmed negative (some exponent), List.append_assoc]
    rfl
  · have again := roundDecimals_eq numeratorPos denominatorPos countPos rounds (by omega)
    rw [again]
    dsimp only
    rw [joinPoint_trimmed negative none]
    exact congrArg _ (List.append_nil _).symm

theorem length_whole_le {decimals : ℕ} (most : digits < 10 ^ count) :
    (decimalDigits (digits / 10 ^ decimals)).length ≤ max 1 (count - decimals) := by
  refine (length_decimalDigits_le_iff (by omega)).mpr ?_
  rw [Nat.div_lt_iff_lt_mul (Nat.pow_pos (by decide)), ← pow_add]
  exact most.trans_le (Nat.pow_le_pow_right (by decide) (by omega))

/-- The exponent of rounded digits, if it has three digits at most, leaves room for no more than
six characters besides the digits. -/
theorem length_generalQuotient_le_count {numerator denominator : ℕ}
    (numeratorPos : 0 < numerator) (denominatorPos : 0 < denominator) (countPos : 0 < count)
    (rounds : roundSignificant count numerator denominator = (digits, exponent))
    (bounded : exponent.natAbs < 10 ^ 3) :
    (generalQuotient count numerator denominator).length ≤ count + 6 := by
  obtain ⟨least, most, -, -⟩ :=
    roundSignificant_spec numeratorPos denominatorPos countPos rounds
  rw [generalQuotient, rounds]
  dsimp only
  split
  · refine Numeral.length_scientific_le ?_ bounded
    exact (length_digits countPos least most).le
  · rw [roundDecimals_eq numeratorPos denominatorPos countPos rounds (by omega)]
    refine (length_joinPoint_trimmed_le _ _).trans ?_
    have whole := @length_whole_le _ _ ((count : ℤ) - 1 - exponent).toNat most
    dsimp only
    rw [length_lastDigits]
    omega

end Rounded

section Doubles

variable {count : ℕ} {value : Binary}

theorem Binary.numerator_pos (positive : 0 < value.significand) : 0 < value.numerator :=
  Nat.mul_pos positive (Nat.two_pow_pos _)

theorem Binary.denominator_pos (value : Binary) : 0 < value.denominator :=
  Nat.two_pow_pos _

theorem Binary.numerator_div_denominator (value : Binary) :
    (value.numerator / value.denominator : ℚ) = value.magnitude := by
  rw [magnitude, ← pow_toNat_div]
  simp only [numerator, denominator, twoPow_eq]
  push_cast
  rw [mul_div_assoc]

theorem Binary.log_signed (positive : 0 < value.significand) :
    Int.log 10 |value.signed| = leadingExponent value.numerator value.denominator := by
  rw [abs_signed, ← numerator_div_denominator,
    log_quotient (numerator_pos positive) value.denominator_pos]

theorem Binary.general_eq (positive : 0 < value.significand) :
    value.general count = (if value.negative then ['-'] else []) ++
      generalQuotient count value.numerator value.denominator := by
  rw [general]
  exact if_neg positive.ne'

/-- Rounded to any count of digits, a double has an exponent of three digits at most. -/
theorem Reading.natAbs_exponent_lt {number : Float} {digits : ℕ} {exponent : ℤ}
    (finite : Reading.of number = .finite value)
    (rounds : roundSignificant count value.numerator value.denominator = (digits, exponent)) :
    exponent.natAbs < 10 ^ 3 := by
  obtain ⟨bound, boundPos, bounded, numerator, denominator⟩ := Reading.of_finite finite
  have leading := natAbs_leadingExponent_le numerator denominator boundPos
  have near := natAbs_roundSignificant_le count value.numerator value.denominator
  rw [rounds] at near
  omega

/-- A text that a rounded number is written as.  It is read as a literal that stands for exactly
that number, in positional notation for exponents from `-4` up to the count of digits and in
scientific notation elsewhere. -/
structure GeneralText (count : ℕ) (rounded : ℚ) (text : List Char) (literal : Literal) : Prop where
  read : Literal.ofCharacters? text = some literal
  value : literal.number = rounded
  positional : literal.exponent = none ↔
    -4 ≤ Int.log 10 |rounded| ∧ Int.log 10 |rounded| < count
  scientific : ∀ exponent ∈ literal.exponent,
    exponent = Int.log 10 |rounded| ∧ literal.whole.length = 1 ∧
      ∃ mantissa digits, text =
          mantissa ++ 'e' :: (if exponent < 0 then '-' else '+') :: digits ∧
        IsDigits digits ∧ 2 ≤ digits.length
  fraction : ∀ digits ∈ literal.fraction, IsDigits digits ∧ digits.getLast? ≠ some '0'
  ends : EndsInDigit text
  plain : ∀ character ∈ text, isPlain character
  short : text.length ≤ count + 7

/-- The text of a double that is not zero is a numeral for the double rounded to significant
digits. -/
theorem Binary.generalText {number : Float} (finite : Reading.of number = .finite value)
    (countPos : 0 < count) (positive : 0 < value.significand) :
    ∃ rounded literal, RoundedTo (Int.log 10 |value.signed| + 1 - count) value.signed rounded ∧
      GeneralText count rounded (value.general count) literal := by
  have numeratorPos := numerator_pos positive
  have denominatorPos := value.denominator_pos
  obtain ⟨digits, exponent, rounds⟩ : ∃ digits exponent,
      roundSignificant count value.numerator value.denominator = (digits, exponent) := ⟨_, _, rfl⟩
  obtain ⟨least, most, grid, -⟩ :=
    roundSignificant_spec numeratorPos denominatorPos countPos rounds
  rw [numerator_div_denominator] at grid
  let magnitude : ℚ := digits * 10 ^ (exponent + 1 - count)
  let rounded : ℚ := if value.negative then -magnitude else magnitude
  let literal := generalLiteral value.negative count digits exponent
  have sign : literal.negative = value.negative := by
    simp only [literal, generalLiteral]
    split <;> rfl
  have size : |rounded| = magnitude := by
    have nonneg : 0 ≤ magnitude := by positivity
    simp only [rounded]
    split
    · rw [abs_neg, abs_of_nonneg nonneg]
    · rw [abs_of_nonneg nonneg]
  have place : Int.log 10 |rounded| = exponent := by
    rw [size]
    exact log_digits countPos least most exponent
  have text : value.general count = (if literal.negative then ['-'] else []) ++ (literal.whole ++
      (Literal.fractionText literal.fraction ++ exponentCharacters literal.exponent)) := by
    rw [general_eq positive, sign]
    exact congrArg _ (generalQuotient_eq _ numeratorPos denominatorPos countPos rounds)
  refine ⟨rounded, literal, ?_, ?_, ?_, ?_, ?_, ?_, ?_, ?_, ?_⟩
  · rw [log_signed positive, signed]
    simp only [rounded]
    split
    · exact grid.neg
    · exact grid
  · rw [text]
    exact (legible_generalLiteral _ _ _ _).ofCharacters?_append (exponentOf?_exponentCharacters _)
  · have quotient : literal.quotient = magnitude :=
      quotient_generalLiteral value.negative countPos least most
    rw [Literal.number, sign, quotient]
  · rw [place]
    exact positional_generalLiteral value.negative count digits exponent
  · intro written held
    obtain ⟨rfl, single⟩ := scientific_generalLiteral value.negative held
    obtain ⟨tail, layout, isDigits, long, -⟩ := signedExponent_eq written
    refine ⟨place.symm, single, (if literal.negative then ['-'] else []) ++
      (literal.whole ++ Literal.fractionText literal.fraction), tail, ?_, isDigits, long⟩
    rw [text, Option.mem_def.mp held, exponentCharacters, layout]
    simp only [List.append_assoc]
  · exact fun written held => fraction_generalLiteral value.negative held
  · exact (isNumeral_general count value).ends
  · exact (isNumeral_general count value).plain
  · have short := length_generalQuotient_le_count numeratorPos denominatorPos countPos rounds
      (Reading.natAbs_exponent_lt finite rounds)
    have signs : (if value.negative then ['-'] else []).length ≤ 1 := by
      split <;> simp
    rw [general_eq positive, List.length_append]
    omega

end Doubles

/-- Rounding to significant digits is correct.  The text of a finite double that is not zero is a
numeral, and the number that it stands for is the double rounded to a count of significant digits:
to the nearest multiple of the power of ten that lies so many places behind the double's first
digit, and of two equally near ones to the even multiple.  The exponent of the rounded number, also
if rounding carried into a new digit, decides the notation. -/
theorem significant_rounds_correctly {count : ℕ} {number : Float} (countPos : 0 < count)
    (finite : isFinite number = true) (nonzero : valueOf number ≠ 0) :
    ∃ rounded literal,
      RoundedTo (Int.log 10 |valueOf number| + 1 - count) (valueOf number) rounded ∧
        GeneralText count rounded (significant count number).toList literal := by
  obtain ⟨value, read, canonical, stands⟩ := exists_of_isFinite finite
  have positive : 0 < value.significand := by
    refine Nat.pos_of_ne_zero fun zero => nonzero ?_
    rw [stands]
    simp [Binary.signed, Binary.magnitude, zero]
  have one : max 1 count = count := max_eq_right countPos
  rw [stands, significant, read]
  dsimp only
  rw [String.toList_ofList, one]
  exact Binary.generalText read countPos positive

/-- Four nines and a half carry into a new digit, and positional notation rounds to the same. -/
theorem significant_rounds_correctly_with_carry :
    significant 4 999.95 = "1000" ∧ ∃ rounded literal,
      RoundedTo (Int.log 10 |valueOf 999.95| + 1 - 4) (valueOf 999.95) rounded ∧
        GeneralText 4 rounded ['1', '0', '0', '0'] literal := by
  have text : significant 4 999.95 = "1000" := by decide +kernel
  have finite : isFinite 999.95 = true := by decide +kernel
  have nonzero : valueOf 999.95 ≠ 0 := by decide +kernel
  obtain ⟨rounded, literal, grid, general⟩ :=
    @significant_rounds_correctly 4 999.95 (by decide) finite nonzero
  rw [text] at general
  exact ⟨text, rounded, literal, grid, general⟩

end Quill.Number
