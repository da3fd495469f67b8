import Quill.Number.Decimal
import Quill.Proofs.ShortestDigits

/-!
# Numerals that round to a double

The digits that are written for a double have a value that rounds to it, with or without the zeros
at their end.  Such a value lies far inside the range in which powers of ten are computed, so
reading it gives the double.
-/

namespace Quill.Number

section Digits

variable {digits : List Char} {number : ℕ}

theorem digitsValue_eq (digits : List Char) : digitsValue digits = Nat.ofDigitChars 10 digits 0 :=
  rfl

theorem digitsValue_decimalDigits (number : ℕ) : digitsValue (decimalDigits number) = number :=
  Nat.ofDigitChars_ten_toDigits

theorem digitsValue_append_zeros (digits : List Char) (count : ℕ) :
    digitsValue (digits ++ List.replicate count '0') = digitsValue digits * 10 ^ count := by
  rw [digitsValue_eq, Nat.ofDigitChars_append, Nat.ofDigitChars_replicate_zero, mul_comm]
  rfl

theorem digitsValue_zeros_append (digits : List Char) (count : ℕ) :
    digitsValue (List.replicate count '0' ++ digits) = digitsValue digits := by
  rw [digitsValue_eq, Nat.ofDigitChars_append, Nat.ofDigitChars_replicate_zero, mul_zero]
  rfl

/-- A positive number does not begin with a zero. -/
theorem head_decimalDigits (positive : 0 < number) : (decimalDigits number).head? ≠ some '0' := by
  induction number using Nat.strongRecOn with
  | ind number ih =>
      rw [decimalDigits]
      rcases Nat.lt_or_ge number 10 with small | large
      · have digits : ∀ digit < 10, 0 < digit → [digit.digitChar].head? ≠ some '0' := by decide
        rw [Nat.toDigits_of_lt_base small]
        exact digits number small positive
      · rw [Nat.toDigits_of_base_le (by decide) large,
          List.head?_append_of_ne_nil _ Nat.toDigits_ne_nil]
        exact ih (number / 10) (by omega) (by omega)

/-- The digits that are dropped are zeros. -/
theorem dropTrailingZeros_append (digits : List Char) :
    ∃ count, digits = dropTrailingZeros digits ++ List.replicate count '0' := by
  have zeros : digits.reverse.takeWhile (· == '0') =
      List.replicate (digits.reverse.takeWhile (· == '0')).length '0' := by
    refine List.eq_replicate_of_mem fun character member => ?_
    exact beq_iff_eq.mp (List.all_eq_true.mp List.all_takeWhile character member)
  refine ⟨(digits.reverse.takeWhile (· == '0')).length, ?_⟩
  calc
    digits = (digits.reverse.takeWhile (· == '0') ++
        digits.reverse.dropWhile (· == '0')).reverse := by
      rw [List.takeWhile_append_dropWhile, List.reverse_reverse]
    _ = dropTrailingZeros digits ++ (digits.reverse.takeWhile (· == '0')).reverse :=
      List.reverse_append
    _ = dropTrailingZeros digits ++
        List.replicate (digits.reverse.takeWhile (· == '0')).length '0' := by
      conv_lhs => rw [zeros, List.reverse_replicate]

end Digits

def Numeral.value (numeral : Numeral) : ℚ :=
  digitsValue numeral.digits * 10 ^ (numeral.exponent + 1 - numeral.digits.length)

/-- A numeral as it is written for a double: its digits begin with one that is not zero. -/
structure Numeral.Leading (numeral : Numeral) : Prop where
  isDigits : IsDigits numeral.digits
  head : numeral.digits.head? ≠ some '0'

/-- Digits without the zeros at their end have the same value, as their exponent is that of the
first digit. -/
theorem Numeral.shortened {number : ℕ} (positive : 0 < number) (exponent : ℤ) :
    let written := decimalDigits number
    let numeral : Numeral := ⟨dropTrailingZeros written, exponent + written.length - 1⟩
    numeral.Leading ∧ numeral.value = number * 10 ^ exponent := by
  intro written numeral
  obtain ⟨count, split⟩ := dropTrailingZeros_append written
  have value : number = digitsValue numeral.digits * 10 ^ count := by
    rw [← digitsValue_append_zeros, ← split, digitsValue_decimalDigits]
  have nonempty : numeral.digits ≠ [] := by
    intro empty
    rw [empty] at value
    exact positive.ne' (value.trans (Nat.zero_mul _))
  refine ⟨⟨⟨nonempty, ?_⟩, ?_⟩, ?_⟩
  · intro character member
    exact (isDigits_decimalDigits number).isDigit character (mem_of_mem_dropTrailingZeros member)
  · have head := head_decimalDigits positive
    rwa [show decimalDigits number = _ from split, List.head?_append_of_ne_nil _ nonempty] at head
  · have length : written.length = numeral.digits.length + count := by
      conv_lhs => rw [split, List.length_append, List.length_replicate]
    have place : numeral.exponent + 1 - numeral.digits.length = exponent + count := by
      dsimp only [numeral] at length ⊢
      omega
    rw [Numeral.value, place, value, zpow_add₀ (by norm_num), zpow_natCast]
    push_cast
    ring

/-- What rounds to a positive double is no multiple of zero. -/
theorem Binary.Attracts.coefficient_pos {binary : Binary} {coefficient : ℕ} {scale : ℤ}
    (attracts : binary.Attracts (coefficient * 10 ^ scale)) (positive : 0 < binary.significand) :
    0 < coefficient := by
  have value := attracts.pos positive
  by_contra zero
  rw [Nat.eq_zero_of_not_pos zero, Nat.cast_zero, zero_mul] at value
  exact lt_irrefl _ value

/-- The numeral that is written for a double has a value that rounds to it. -/
theorem Binary.attracts_shortest {binary : Binary} (canonical : binary.Canonical)
    (positive : 0 < binary.significand) :
    binary.shortest.Leading ∧ binary.Attracts binary.shortest.value := by
  have attracts := Binary.attracts_search canonical positive
  rw [shortest]
  generalize leadingExponent binary.interval.value binary.interval.denominator = leading at attracts
  generalize binary.interval.search 16 leading = found at attracts
  obtain ⟨leads, value⟩ := Numeral.shortened (attracts.coefficient_pos positive) found.2
  exact ⟨leads, value ▸ attracts⟩

section Nearest

variable {binary : Binary} {quotient : ℚ} {coefficient : ℕ} {scale : ℤ}

/-- Numbers that round to a positive double are far from both bounds of the powers of ten. -/
theorem Binary.Attracts.bounds (attracts : binary.Attracts quotient)
    (canonical : binary.Canonical) (positive : 0 < binary.significand) :
    (10 : ℚ) ^ (-400 : ℤ) < quotient ∧ quotient < 10 ^ (400 : ℤ) := by
  have powers : (2 : ℚ) ^ (1075 : ℕ) < 10 ^ (400 : ℕ) := by
    rw [show 1075 = 43 * 25 by rfl, show 400 = 16 * 25 by rfl, pow_mul, pow_mul]
    exact pow_lt_pow_left₀ (by norm_num) (by norm_num) (by decide)
  have unit : (0 : ℚ) < 2 ^ binary.exponent := by positivity
  have least : (1 : ℚ) ≤ binary.significand := by exact_mod_cast positive
  have most : (binary.significand : ℚ) + 1 ≤ 2 ^ 53 := by exact_mod_cast canonical.significand
  have reach := binary.reach_le
  constructor
  · calc
      (10 : ℚ) ^ (-400 : ℤ) < 2 ^ (-1075 : ℤ) := by
        rw [zpow_neg, zpow_neg]
        exact inv_strictAnti₀ (by positivity) (by exact_mod_cast powers)
      _ = 1 / 2 * 2 ^ (-1074 : ℤ) := by
        rw [show (-1075 : ℤ) = -1 + -1074 by rfl, zpow_add₀ two_ne_zero]
        norm_num
      _ ≤ 1 / 2 * 2 ^ binary.exponent := by
        refine mul_le_mul_of_nonneg_left ?_ (by norm_num)
        exact zpow_le_zpow_right₀ one_le_two canonical.least
      _ ≤ (binary.significand - binary.reach) * 2 ^ binary.exponent :=
        mul_le_mul_of_nonneg_right (by linarith) unit.le
      _ ≤ quotient := attracts.low_le
  · calc
      quotient ≤ (binary.significand + 1 / 2) * 2 ^ binary.exponent := attracts.le_high
      _ ≤ 2 ^ 53 * 2 ^ binary.exponent := mul_le_mul_of_nonneg_right (by linarith) unit.le
      _ ≤ 2 ^ 53 * 2 ^ (971 : ℤ) := by
        refine mul_le_mul_of_nonneg_left ?_ (by norm_num)
        exact zpow_le_zpow_right₀ one_le_two canonical.most
      _ ≤ 2 ^ (1075 : ℕ) := by
        rw [← zpow_natCast, ← zpow_natCast, ← zpow_add₀ two_ne_zero]
        exact zpow_le_zpow_right₀ one_le_two (by decide)
      _ < 10 ^ (400 : ℤ) := by exact_mod_cast powers

/-- A decimal number that a double attracts is read as that double. -/
theorem nearestDecimal_eq {value : Float} (finite : Reading.of value = .finite binary)
    (positive : 0 < binary.significand) (attracts : binary.Attracts (coefficient * 10 ^ scale)) :
    nearestDecimal binary.negative coefficient scale = value := by
  obtain ⟨canonical, -, -⟩ := Reading.ofMagnitude_of_finite finite
  obtain ⟨least, most⟩ := attracts.bounds canonical positive
  have coefficientPos := attracts.coefficient_pos positive
  have inside : ¬ ((decimalDigits coefficient).length : ℤ) + scale < -400 := by
    intro outside
    have above : (coefficient : ℚ) < 10 ^ ((decimalDigits coefficient).length : ℤ) := by
      have := lt_ten_pow_length coefficient
      rw [zpow_natCast]
      exact_mod_cast this
    refine absurd least (not_lt_of_ge ?_)
    calc
      (coefficient * 10 ^ scale : ℚ) ≤ 10 ^ ((decimalDigits coefficient).length : ℤ) * 10 ^ scale :=
        mul_le_mul_of_nonneg_right above.le (by positivity)
      _ = 10 ^ (((decimalDigits coefficient).length : ℤ) + scale) :=
        (zpow_add₀ (by norm_num) _ _).symm
      _ ≤ 10 ^ (-400 : ℤ) := zpow_le_zpow_right₀ (by norm_num) outside.le
  have inside' : ¬ 400 < ((decimalDigits coefficient).length : ℤ) + scale := by
    intro outside
    refine absurd most (not_lt_of_ge ?_)
    calc
      (10 : ℚ) ^ (400 : ℤ) ≤ 10 ^ (((decimalDigits coefficient).length : ℤ) - 1 + scale) :=
        zpow_le_zpow_right₀ (by norm_num) (by omega)
      _ = 10 ^ (((decimalDigits coefficient).length : ℤ) - 1) * 10 ^ scale :=
        zpow_add₀ (by norm_num) _ _
      _ ≤ coefficient * 10 ^ scale :=
        mul_le_mul_of_nonneg_right (ten_pow_le_of_pos coefficientPos) (by positivity)
  rw [nearestDecimal, if_neg (not_or.mpr ⟨coefficientPos.ne', inside⟩), if_neg inside']
  refine nearest_eq_of_attracts finite ?_ ?_ ?_
  · have quotient : ((coefficient * tenPow scale.toNat : ℕ) / (tenPow (-scale).toNat : ℕ) : ℚ) =
        coefficient * 10 ^ scale := by
      rw [← pow_toNat_div, mul_div_assoc']
      simp only [tenPow_eq]
      push_cast
      rfl
    rwa [quotient]
  · exact Nat.mul_pos coefficientPos (Nat.pow_pos (by decide))
  · exact Nat.pow_pos (by decide)

end Nearest

end Quill.Number
