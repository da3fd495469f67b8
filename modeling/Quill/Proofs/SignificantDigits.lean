import Mathlib.Data.Int.Log
import Quill.Proofs.ShortestDigits

/-!
# Rounding to significant digits

A number that is rounded on a grid of powers of ten becomes the nearest point of the grid, and of
two equally near ones the even one, so it becomes one point only.  The digits asked for choose the
grid: its step lies that many places behind the first digit.  If all digits are nines, rounding may
carry into a new digit.  The result then lies on the coarser grid of its own digits as well, and it
is the number rounded on that grid too, which the second rounding of positional notation relies on.
-/

namespace Quill.Number

/-- The point on the grid of multiples of a power of ten that a number is rounded to: the nearest
one, or the even one of two that are equally near. -/
def RoundedTo (place : ℤ) (exact rounded : ℚ) : Prop :=
  ∃ multiple : ℤ, rounded = multiple * 10 ^ place ∧ 2 * |exact - rounded| ≤ 10 ^ place ∧
    (2 * |exact - rounded| = 10 ^ place → Even multiple)

section Grid

variable {place shift : ℤ} {exact rounded other : ℚ}

theorem RoundedTo.scale (roundedTo : RoundedTo place exact rounded) (shift : ℤ) :
    RoundedTo (place + shift) (exact * 10 ^ shift) (rounded * 10 ^ shift) := by
  obtain ⟨multiple, rfl, near, even⟩ := roundedTo
  have unit : (0 : ℚ) < 10 ^ shift := by positivity
  have distance : 2 * |exact * 10 ^ shift - multiple * 10 ^ place * 10 ^ shift| =
      2 * |exact - multiple * 10 ^ place| * 10 ^ shift := by
    rw [← sub_mul, abs_mul, abs_of_pos unit, mul_assoc]
  have step : (10 : ℚ) ^ (place + shift) = 10 ^ place * 10 ^ shift := zpow_add₀ (by norm_num) _ _
  refine ⟨multiple, ?_, ?_, ?_⟩
  · rw [step, mul_assoc]
  · rw [distance, step]
    exact mul_le_mul_of_nonneg_right near unit.le
  · rw [distance, step]
    exact fun half => even (mul_right_cancel₀ unit.ne' half)

theorem RoundedTo.neg (roundedTo : RoundedTo place exact rounded) :
    RoundedTo place (-exact) (-rounded) := by
  obtain ⟨multiple, rfl, near, even⟩ := roundedTo
  have distance : |(-exact) - -(multiple * 10 ^ place)| = |exact - multiple * 10 ^ place| := by
    rw [neg_sub_neg, abs_sub_comm]
  refine ⟨-multiple, by push_cast; ring, ?_, ?_⟩
  · rwa [distance]
  · rw [distance]
    exact fun half => (even half).neg

/-- A point of the grid that is not above a number is not above the rounded number. -/
theorem RoundedTo.le_of_le (roundedTo : RoundedTo place exact rounded) {bound : ℤ}
    (below : bound * (10 : ℚ) ^ place ≤ exact) : bound * (10 : ℚ) ^ place ≤ rounded := by
  obtain ⟨multiple, rfl, near, -⟩ := roundedTo
  have unit : (0 : ℚ) < 10 ^ place := by positivity
  have distance := le_abs_self (exact - multiple * 10 ^ place)
  have half : ((bound : ℚ) - multiple) * 10 ^ place < 1 * 10 ^ place := by linarith
  have last : bound < multiple + 1 := by
    have := lt_of_mul_lt_mul_right half unit.le
    have : (bound : ℚ) < multiple + 1 := by linarith
    exact_mod_cast this
  refine mul_le_mul_of_nonneg_right ?_ unit.le
  exact_mod_cast Int.lt_add_one_iff.mp last

/-- A number is rounded to one point only: of two neighbours at most one is even. -/
theorem RoundedTo.unique (first : RoundedTo place exact rounded)
    (second : RoundedTo place exact other) : rounded = other := by
  have unit : (0 : ℚ) < 10 ^ place := by positivity
  have apart : ∀ {low high : ℤ}, low < high →
      2 * |exact - low * 10 ^ place| ≤ 10 ^ place → 2 * |exact - high * 10 ^ place| ≤ 10 ^ place →
      (2 * |exact - low * 10 ^ place| = 10 ^ place → Even low) →
      ¬ (2 * |exact - high * 10 ^ place| = 10 ^ place → Even high) := by
    intro low high less near near' even even'
    have above := le_abs_self (exact - low * 10 ^ place)
    have below := neg_abs_le (exact - high * 10 ^ place)
    have close : (high : ℚ) * 10 ^ place ≤ (low + 1) * 10 ^ place := by linarith
    have close := le_of_mul_le_mul_right close unit
    have next : high = low + 1 := le_antisymm (by exact_mod_cast close) less
    rw [next] at near' even' below
    push_cast at near' even' below
    have half := even (by linarith)
    have half' := even' (by linarith)
    exact (Int.even_add_one.mp half') half
  obtain ⟨multiple, rfl, near, even⟩ := first
  obtain ⟨multiple', rfl, near', even'⟩ := second
  rcases lt_trichotomy multiple multiple' with less | same | greater
  · exact (apart less near near' even even').elim
  · rw [same]
  · exact (apart greater near' near even' even).elim

/-- What is rounded to a point of the next coarser grid is rounded on that grid too, without a
tie, because its half step is wider than a half step of the finer grid. -/
theorem RoundedTo.coarser (roundedTo : RoundedTo place exact rounded)
    (coarse : ∃ multiple : ℤ, (multiple : ℚ) * 10 ^ (place + 1) = rounded) :
    RoundedTo (place + 1) exact rounded := by
  obtain ⟨-, -, near, -⟩ := roundedTo
  obtain ⟨multiple, equal⟩ := coarse
  have wider : (10 : ℚ) ^ place < 10 ^ (place + 1) :=
    zpow_lt_zpow_right₀ (by norm_num) (lt_add_one place)
  refine ⟨multiple, equal.symm, near.trans wider.le, ?_⟩
  intro half
  exact absurd (half ▸ near) (not_le_of_gt wider)

/-- The power of ten is a point of every finer grid. -/
theorem zpow_eq_multiple {leading : ℤ} (finer : place ≤ leading) :
    ((10 ^ (leading - place).toNat : ℤ) : ℚ) * 10 ^ place = 10 ^ leading := by
  have exponent : ((leading - place).toNat : ℤ) + place = leading := by omega
  push_cast
  rw [← zpow_natCast, ← zpow_add₀ (by norm_num), exponent]

end Grid

section Quotients

variable {numerator denominator count : ℕ}

theorem even_roundHalfEven (tie : 2 * (numerator % denominator) = denominator) :
    Even (roundHalfEven numerator denominator) := by
  rw [Nat.even_iff]
  simp only [roundHalfEven]
  rw [if_neg (by omega), if_neg (by omega)]
  omega

theorem roundedTo_roundHalfEven (positive : 0 < denominator) :
    RoundedTo 0 (numerator / denominator) (roundHalfEven numerator denominator) := by
  have scale : (0 : ℚ) < denominator := by exact_mod_cast positive
  have near : |(numerator / denominator : ℚ) - roundHalfEven numerator denominator| ≤ 1 / 2 := by
    obtain ⟨above, below⟩ := @roundHalfEven_near numerator denominator positive
    exact abs_le.mpr ⟨by linarith, by linarith⟩
  refine ⟨roundHalfEven numerator denominator, ?_, ?_, ?_⟩
  · rw [zpow_zero, mul_one, Int.cast_natCast]
  · rw [zpow_zero]
    linarith
  · rw [zpow_zero, Int.even_coe_nat]
    intro half
    refine even_roundHalfEven ?_
    have half : |(numerator / denominator : ℚ) - roundHalfEven numerator denominator| = 1 / 2 := by
      linarith
    have quotient : (numerator / denominator : ℚ) * denominator = numerator :=
      div_mul_cancel₀ _ scale.ne'
    have twice : 2 * numerator =
          2 * (denominator * roundHalfEven numerator denominator) + denominator ∨
        2 * numerator + denominator =
          2 * (denominator * roundHalfEven numerator denominator) := by
      refine ((abs_eq (by norm_num)).mp half).imp (fun above => ?_) fun below => ?_
      · rw [sub_eq_iff_eq_add.mp above] at quotient
        have : (2 * numerator : ℚ) =
            2 * (denominator * roundHalfEven numerator denominator) + denominator := by
          rw [← quotient]
          ring
        exact_mod_cast this
      · rw [sub_eq_iff_eq_add.mp below] at quotient
        have : (2 * numerator + denominator : ℚ) =
            2 * (denominator * roundHalfEven numerator denominator) := by
          rw [← quotient]
          ring
        exact_mod_cast this
    have whole := Nat.div_add_mod numerator denominator
    have rest := Nat.mod_lt numerator positive
    rcases roundHalfEven_cases numerator denominator with down | up
    · rw [down] at twice
      omega
    · rw [up, Nat.mul_succ] at twice
      omega

/-- Rounding a quotient whose point was moved rounds it on the grid of the digits behind it. -/
theorem roundedTo_scaled (positive : 0 < denominator) (shift : ℤ) :
    RoundedTo (-shift) (numerator / denominator)
      (roundHalfEven (numerator * tenPow shift.toNat) (denominator * tenPow (-shift).toNat) *
        10 ^ (-shift)) := by
  have moved : ((numerator * tenPow shift.toNat : ℕ) : ℚ) /
      ((denominator * tenPow (-shift).toNat : ℕ) : ℚ) = numerator / denominator * 10 ^ shift := by
    simp only [tenPow_eq]
    push_cast
    rw [mul_div_mul_comm, pow_toNat_div]
  have positive : 0 < denominator * tenPow (-shift).toNat :=
    Nat.mul_pos positive (Nat.pow_pos (by decide))
  have rounded := @roundedTo_roundHalfEven (numerator * tenPow shift.toNat) _ positive
  have scaled := rounded.scale (-shift)
  rwa [moved, mul_assoc, ← zpow_add₀ (by norm_num), add_neg_cancel, zpow_zero, mul_one,
    zero_add] at scaled

theorem log_eq {number : ℚ} {exponent : ℤ} (least : 10 ^ exponent ≤ number)
    (most : number < 10 ^ (exponent + 1)) : Int.log 10 number = exponent := by
  have positive : 0 < number := lt_of_lt_of_le (by positivity) least
  have base : ((10 : ℕ) : ℚ) = 10 := Nat.cast_ofNat
  refine le_antisymm ?_ ?_
  · rw [← Int.lt_add_one_iff, ← Int.lt_zpow_iff_log_lt (by decide) positive, base]
    exact most
  · rw [← Int.zpow_le_iff_le_log (by decide) positive, base]
    exact least

theorem log_quotient (numeratorPos : 0 < numerator) (denominatorPos : 0 < denominator) :
    Int.log 10 (numerator / denominator : ℚ) = leadingExponent numerator denominator := by
  have scale : (0 : ℚ) < denominator := by exact_mod_cast denominatorPos
  refine log_eq (le_of_leadingExponent numeratorPos denominatorPos) ?_
  have below : (numerator * 10 ^ (-(leadingExponent numerator denominator + 1)).toNat : ℚ) <
      denominator * 10 ^ (leadingExponent numerator denominator + 1).toNat := by
    exact_mod_cast lt_of_leadingExponent numeratorPos denominatorPos
  rw [div_lt_iff₀ scale, ← pow_toNat_div, div_mul_eq_mul_div, lt_div_iff₀ (by positivity),
    mul_comm _ (denominator : ℚ)]
  exact below

/-- Digits of which the first is not zero have the exponent of the first one. -/
theorem log_digits {digits : ℕ} (countPos : 0 < count) (least : 10 ^ (count - 1) ≤ digits)
    (most : digits < 10 ^ count) (exponent : ℤ) :
    Int.log 10 (digits * 10 ^ (exponent + 1 - count) : ℚ) = exponent := by
  have unit : (0 : ℚ) < 10 ^ (exponent + 1 - count) := by positivity
  have least : (10 : ℚ) ^ (count - 1) ≤ digits := by exact_mod_cast least
  have most : (digits : ℚ) < 10 ^ count := by exact_mod_cast most
  refine log_eq ?_ ?_
  · calc
      (10 : ℚ) ^ exponent = 10 ^ (count - 1) * 10 ^ (exponent + 1 - count) := by
        rw [← zpow_natCast, ← zpow_add₀ (by norm_num)]
        congr 1
        omega
      _ ≤ digits * 10 ^ (exponent + 1 - count) := mul_le_mul_of_nonneg_right least unit.le
  · calc
      (digits * 10 ^ (exponent + 1 - count) : ℚ) < 10 ^ count * 10 ^ (exponent + 1 - count) :=
        mul_lt_mul_of_pos_right most unit
      _ = 10 ^ (exponent + 1) := by
        rw [← zpow_natCast, ← zpow_add₀ (by norm_num)]
        congr 1
        omega

/-- The digits of a rounded quotient are as many as were asked for.  They are the quotient rounded
on the grid that its own exponent gives, and also on the grid that the exponent of the digits
gives, which is coarser if rounding has carried. -/
theorem roundSignificant_spec {digits : ℕ} {exponent : ℤ} (numeratorPos : 0 < numerator)
    (denominatorPos : 0 < denominator) (countPos : 0 < count)
    (rounds : roundSignificant count numerator denominator = (digits, exponent)) :
    10 ^ (count - 1) ≤ digits ∧ digits < 10 ^ count ∧
      RoundedTo (leadingExponent numerator denominator + 1 - count) (numerator / denominator)
        (digits * 10 ^ (exponent + 1 - count)) ∧
      RoundedTo (exponent + 1 - count) (numerator / denominator)
        (digits * 10 ^ (exponent + 1 - count)) := by
  have least := le_of_leadingExponent numeratorPos denominatorPos
  have below := roundSignificant_lt numeratorPos denominatorPos countPos
  rw [rounds] at below
  generalize leadingBy : leadingExponent numerator denominator = leading at *
  have grid := @roundedTo_scaled numerator denominator denominatorPos (count - 1 - leading)
  have place : -((count : ℤ) - 1 - leading) = leading + 1 - count := by omega
  rw [place] at grid
  simp only [roundSignificant, leadingBy, place] at rounds
  generalize roundHalfEven (numerator * tenPow ((count : ℤ) - 1 - leading).toNat)
    (denominator * tenPow (leading + 1 - (count : ℤ)).toNat) = whole at grid rounds
  by_cases carries : whole = tenPow count
  · rw [if_pos carries, Prod.mk.injEq] at rounds
    obtain ⟨rfl, rfl⟩ := rounds
    have value : ((tenPow (count - 1) : ℕ) : ℚ) * 10 ^ (leading + 1 + 1 - count) =
        whole * 10 ^ (leading + 1 - count) := by
      rw [carries, tenPow_eq, tenPow_eq]
      push_cast
      rw [← zpow_natCast, ← zpow_natCast, ← zpow_add₀ (by norm_num), ← zpow_add₀ (by norm_num)]
      congr 1
      omega
    have next : leading + 1 + 1 - (count : ℤ) = leading + 1 - count + 1 := by omega
    refine ⟨le_rfl, below, ?_, ?_⟩
    · rwa [value]
    · rw [next] at value ⊢
      rw [value]
      exact grid.coarser ⟨tenPow (count - 1), by rw [← value, Int.cast_natCast]⟩
  · rw [if_neg carries, Prod.mk.injEq] at rounds
    obtain ⟨rfl, rfl⟩ := rounds
    refine ⟨?_, below, grid, grid⟩
    have first : ((leading - (leading + 1 - count)).toNat) = count - 1 := by omega
    have power := @zpow_eq_multiple (leading + 1 - count) leading (by omega)
    rw [first] at power
    have above := grid.le_of_le (power.le.trans least)
    have unit : (0 : ℚ) < 10 ^ (leading + 1 - (count : ℤ)) := by positivity
    exact_mod_cast le_of_mul_le_mul_right above unit

/-- Positional notation rounds anew, but on the grid of the digits that were rounded before. -/
theorem roundDecimals_eq {digits : ℕ} {exponent : ℤ} (numeratorPos : 0 < numerator)
    (denominatorPos : 0 < denominator) (countPos : 0 < count)
    (rounds : roundSignificant count numerator denominator = (digits, exponent))
    (most : exponent < count) :
    let decimals := ((count : ℤ) - 1 - exponent).toNat
    roundDecimals decimals numerator denominator =
      (decimalDigits (digits / 10 ^ decimals), lastDigits decimals digits) := by
  intro decimals
  obtain ⟨-, -, -, grid⟩ := roundSignificant_spec numeratorPos denominatorPos countPos rounds
  have anew := @roundedTo_scaled numerator denominator denominatorPos decimals
  have place : -(decimals : ℤ) = exponent + 1 - count := by omega
  have none : (-(decimals : ℤ)).toNat = 0 := by omega
  rw [none, Int.toNat_natCast, place, tenPow_eq 0, pow_zero, mul_one] at anew
  have unit : (10 : ℚ) ^ (exponent + 1 - count) ≠ 0 := by positivity
  have same : roundHalfEven (numerator * tenPow decimals) denominator = digits := by
    exact_mod_cast mul_right_cancel₀ unit (anew.unique grid)
  rw [roundDecimals, same]
  rfl

end Quotients

end Quill.Number
