import Quill.Number.Decimal
import Quill.Number.Shortest
import Quill.Proofs.NearestDouble

/-!
# Shortest digits

The digits that are written for a double are tried against the interval of the numbers that round
to it.  Seventeen digits are taken without a test, as the nearest number with so many digits is
nearer than any end of the interval.  So whatever digits are chosen, the double attracts them.
-/

namespace Quill.Number

theorem tenPow_eq (exponent : ℕ) : tenPow exponent = 10 ^ exponent :=
  rfl

section Rounding

variable {numerator denominator : ℕ}

theorem roundHalfEven_cases (numerator denominator : ℕ) :
    roundHalfEven numerator denominator = numerator / denominator ∨
      roundHalfEven numerator denominator = numerator / denominator + 1 := by
  simp only [roundHalfEven]
  split
  · exact .inl rfl
  · split
    · exact .inr rfl
    · omega

/-- Rounding moves a quotient by a half at most. -/
theorem roundHalfEven_near (positive : 0 < denominator) :
    (roundHalfEven numerator denominator - 1 / 2 : ℚ) ≤ numerator / denominator ∧
      (numerator / denominator : ℚ) ≤ roundHalfEven numerator denominator + 1 / 2 := by
  have scale : (0 : ℚ) < denominator := by exact_mod_cast positive
  have whole := Nat.div_add_mod numerator denominator
  have rest := Nat.mod_lt numerator positive
  have step : denominator * (numerator / denominator + 1) =
      denominator * (numerator / denominator) + denominator := Nat.mul_succ _ _
  have near : 2 * (denominator * roundHalfEven numerator denominator) ≤
        2 * numerator + denominator ∧
      2 * numerator ≤ 2 * (denominator * roundHalfEven numerator denominator) + denominator := by
    simp only [roundHalfEven]
    split
    · omega
    · split
      · omega
      · rcases Nat.mod_two_eq_zero_or_one (numerator / denominator) with even | odd
        · rw [even, Nat.add_zero]
          omega
        · rw [odd]
          omega
  obtain ⟨above, below⟩ := near
  have above : (2 * (denominator * roundHalfEven numerator denominator) : ℚ) ≤
      2 * numerator + denominator := by exact_mod_cast above
  have below : (2 * numerator : ℚ) ≤
      2 * (denominator * roundHalfEven numerator denominator) + denominator := by
    exact_mod_cast below
  constructor
  · rw [le_div_iff₀ scale]
    linarith
  · rw [div_le_iff₀ scale]
    linarith

/-- A positive number is not below the power of ten of its first digit. -/
theorem ten_pow_le_of_pos {number : ℕ} (positive : 0 < number) :
    (10 : ℚ) ^ ((decimalDigits number).length - 1 : ℤ) ≤ number := by
  obtain ⟨zeros, length⟩ : ∃ zeros, (decimalDigits number).length = zeros + 1 :=
    ⟨_, (Nat.sub_add_cancel (decimalDigits_length_pos _)).symm⟩
  have least : 10 ^ zeros ≤ number := by
    rcases Nat.eq_zero_or_pos zeros with rfl | zerosPos
    · exact positive
    · by_contra below
      have := (length_decimalDigits_le_iff zerosPos).mpr (Nat.lt_of_not_le below)
      omega
  rw [length, show ((zeros + 1 : ℕ) : ℤ) - 1 = zeros by omega, zpow_natCast]
  exact_mod_cast least

/-- A quotient is not below the power of ten of its leading digit. -/
theorem le_of_leadingExponent (numeratorPos : 0 < numerator) (denominatorPos : 0 < denominator) :
    (10 : ℚ) ^ leadingExponent numerator denominator ≤ numerator / denominator := by
  have scale : (0 : ℚ) < denominator := by exact_mod_cast denominatorPos
  rw [le_div_iff₀ scale, leadingExponent]
  split
  · rename_i large
    have least := ten_pow_le_of_pos (Nat.div_pos large denominatorPos)
    have whole : ((numerator / denominator : ℕ) : ℚ) * denominator ≤ numerator := by
      exact_mod_cast Nat.div_mul_le_self numerator denominator
    exact (mul_le_mul_of_nonneg_right least scale.le).trans whole
  · rename_i small
    have below := lt_ten_pow_length ((denominator - 1) / numerator)
    rw [Nat.div_lt_iff_lt_mul numeratorPos] at below
    have most : denominator ≤ 10 ^ (decimalDigits ((denominator - 1) / numerator)).length *
        numerator := by omega
    rw [zpow_neg, zpow_natCast, inv_mul_le_iff₀ (by positivity)]
    exact_mod_cast most

end Rounding

namespace Interval

variable {interval : Interval} {digits : ℕ} {exponent : ℤ}

def Holds (interval : Interval) (quotient : ℚ) : Prop :=
  Within (interval.closed = true) (interval.low / interval.denominator)
    (interval.high / interval.denominator) quotient

/-- The test of digits on a grid decides whether their value lies in the interval. -/
theorem holds_iff (positive : 0 < interval.denominator) :
    interval.holds digits exponent = true ↔ interval.Holds (digits * 10 ^ exponent) := by
  have scale : (0 : ℚ) < interval.denominator := by exact_mod_cast positive
  have unit : (0 : ℚ) < 10 ^ (-exponent).toNat := by positivity
  have le_point (bound : ℕ) : bound * tenPow (-exponent).toNat ≤
      digits * tenPow exponent.toNat * interval.denominator ↔
        (bound / interval.denominator : ℚ) ≤ digits * 10 ^ exponent := by
    rw [div_le_iff₀ scale, ← pow_toNat_div, mul_div_assoc', div_mul_eq_mul_div, le_div_iff₀ unit]
    exact_mod_cast Iff.rfl
  have point_le (bound : ℕ) : digits * tenPow exponent.toNat * interval.denominator ≤
      bound * tenPow (-exponent).toNat ↔
        (digits * 10 ^ exponent : ℚ) ≤ bound / interval.denominator := by
    rw [le_div_iff₀ scale, ← pow_toNat_div, mul_div_assoc', div_mul_eq_mul_div, div_le_iff₀ unit]
    exact_mod_cast Iff.rfl
  rw [holds]
  split
  · rename_i closed
    rw [decide_eq_true_iff, le_point, point_le]
    exact ⟨fun ⟨above, below⟩ => ⟨above, below, .inl closed⟩,
      fun within => ⟨within.low_le, within.le_high⟩⟩
  · rename_i opened
    rw [decide_eq_true_iff, ← not_le, ← not_le, le_point, point_le, not_le, not_le]
    exact ⟨fun ⟨above, below⟩ => ⟨above.le, below.le, .inr ⟨above, below⟩⟩,
      fun within => within.inner.resolve_left opened⟩

theorem holds_of_digitsAt? (found : interval.digitsAt? exponent = some digits) :
    interval.holds digits exponent = true := by
  simp only [digitsAt?] at found
  split at found
  · rename_i below above
    cases found
    rcases roundHalfEven_cases (interval.onGrid exponent).1 (interval.onGrid exponent).2 with
      same | next
    · rw [same]
      exact below
    · rw [next]
      exact above
  · cases found
    assumption
  · cases found
    assumption
  · cases found

/-- The digits that are found lie in the interval, if rounding on the last grid leads there. -/
theorem holds_search {finer : ℕ} (last : interval.holds
      (roundHalfEven (interval.onGrid (exponent - finer)).1 (interval.onGrid (exponent - finer)).2)
      (exponent - finer) = true) :
    interval.holds (interval.search finer exponent).1
      (interval.search finer exponent).2 = true := by
  induction finer generalizing exponent with
  | zero =>
      rw [search]
      simpa only [Nat.cast_zero, sub_zero] using last
  | succ finer ih =>
      rw [search]
      split
      · rename_i digits found
        exact holds_of_digitsAt? found
      · refine ih ?_
        have next : exponent - (finer + 1 : ℕ) = exponent - 1 - finer := by omega
        rwa [next] at last

end Interval

namespace Binary

variable {value : Binary} {quotient : ℚ}

def magnitude (value : Binary) : ℚ :=
  value.significand * 2 ^ value.exponent

theorem interval_denominator_pos (value : Binary) : 0 < value.interval.denominator :=
  Nat.mul_pos (by decide) (Nat.two_pow_pos _)

theorem interval_value_eq (value : Binary) :
    (value.interval.value / value.interval.denominator : ℚ) = value.magnitude := by
  rw [magnitude, ← pow_toNat_div]
  simp only [interval, denominator, twoPow_eq]
  push_cast
  field_simp

/-- The interval of a double has the numbers that round to it. -/
theorem interval_holds_iff (positive : 0 < value.significand) :
    value.interval.Holds quotient ↔ value.Attracts quotient := by
  have low : (value.interval.low / value.interval.denominator : ℚ) =
      (value.significand - value.reach) * 2 ^ value.exponent := by
    rw [← pow_toNat_div]
    simp only [interval, denominator, reach]
    by_cases narrow : value.significand = twoPow 52 ∧ -1074 < value.exponent
    · rw [if_pos narrow, if_pos narrow, Nat.cast_mul, Nat.cast_sub (by omega)]
      simp only [twoPow_eq]
      push_cast
      field_simp
    · rw [if_neg narrow, if_neg narrow, Nat.cast_mul, Nat.cast_sub (by omega)]
      simp only [twoPow_eq]
      push_cast
      field_simp
      ring
  have high : (value.interval.high / value.interval.denominator : ℚ) =
      (value.significand + 1 / 2) * 2 ^ value.exponent := by
    rw [← pow_toNat_div]
    simp only [interval, denominator, twoPow_eq]
    push_cast
    field_simp
    ring
  have closed : (value.interval.closed = true) = (value.significand % 2 = 0) := by
    simp only [interval, beq_iff_eq]
  rw [Interval.Holds, low, high, closed, Attracts]

/-- Seventeen digits are closer to a double than the ends of its interval. -/
theorem attracts_of_near (canonical : value.Canonical) {digits : ℕ} {exponent : ℤ}
    (fine : (10 : ℚ) ^ (exponent + 16) ≤ value.magnitude)
    (above : (digits - 1 / 2 : ℚ) ≤ value.magnitude * 10 ^ (-exponent))
    (below : value.magnitude * 10 ^ (-exponent) ≤ digits + 1 / 2) :
    value.Attracts (digits * 10 ^ exponent) := by
  have unit : (0 : ℚ) < 2 ^ value.exponent := by positivity
  have grid : (0 : ℚ) < 10 ^ exponent := by positivity
  have back : value.magnitude * 10 ^ (-exponent) * 10 ^ exponent = value.magnitude := by
    rw [mul_assoc, ← zpow_add₀ (by norm_num), neg_add_cancel, zpow_zero, mul_one]
  have above := mul_le_mul_of_nonneg_right above grid.le
  have below := mul_le_mul_of_nonneg_right below grid.le
  rw [back] at above below
  have step : (10 : ℚ) ^ exponent * 10 ^ 16 ≤ value.significand * 2 ^ value.exponent := by
    rw [zpow_add₀ (by norm_num)] at fine
    exact_mod_cast fine
  have half : (10 : ℚ) ^ exponent / 2 < value.reach * 2 ^ value.exponent := by
    rw [reach]
    split
    · rename_i narrow
      have significand : (value.significand : ℚ) = 2 ^ 52 := by exact_mod_cast narrow.1
      rw [significand] at step
      norm_num at step
      linarith
    · have significand : (value.significand : ℚ) ≤ 2 ^ 53 := by
        exact_mod_cast canonical.significand.le
      have most := mul_le_mul_of_nonneg_right significand unit.le
      norm_num at step most
      linarith
  have reach := mul_le_mul_of_nonneg_right value.reach_le unit.le
  have low : ((value.significand : ℚ) - value.reach) * 2 ^ value.exponent <
      digits * 10 ^ exponent := by
    rw [magnitude] at below
    linarith
  have high : (digits * 10 ^ exponent : ℚ) < (value.significand + 1 / 2) * 2 ^ value.exponent := by
    rw [magnitude] at above
    linarith
  exact ⟨low.le, high.le, .inr ⟨low, high⟩⟩

/-- The digits that are chosen for a double are a number that rounds to it. -/
theorem attracts_search (canonical : value.Canonical) (positive : 0 < value.significand) :
    let found := value.interval.search 16
      (leadingExponent value.interval.value value.interval.denominator)
    value.Attracts (found.1 * 10 ^ found.2) := by
  intro found
  have denominatorPos := value.interval_denominator_pos
  have valuePos : 0 < value.interval.value :=
    Nat.mul_pos (Nat.mul_pos (by decide) positive) (Nat.two_pow_pos _)
  have least := le_of_leadingExponent valuePos denominatorPos
  rw [interval_value_eq] at least
  rw [← interval_holds_iff positive, ← Interval.holds_iff denominatorPos]
  refine Interval.holds_search ?_
  rw [Interval.holds_iff denominatorPos, interval_holds_iff positive]
  generalize leadingExponent value.interval.value value.interval.denominator = leading at least
  have gridPos : 0 < (value.interval.onGrid (leading - (16 : ℕ))).2 :=
    Nat.mul_pos denominatorPos (Nat.pow_pos (by decide))
  have onGrid : ((value.interval.onGrid (leading - (16 : ℕ))).1 /
      (value.interval.onGrid (leading - (16 : ℕ))).2 : ℚ) =
        value.magnitude * 10 ^ (-(leading - (16 : ℕ))) := by
    rw [← interval_value_eq, ← scaled_div]
    simp only [Interval.onGrid, tenPow_eq]
    push_cast
    rfl
  obtain ⟨above, below⟩ := roundHalfEven_near gridPos
  rw [onGrid] at above below
  refine attracts_of_near canonical ?_ above below
  rw [show leading - (16 : ℕ) + 16 = leading by omega]
  exact least

end Binary

end Quill.Number
