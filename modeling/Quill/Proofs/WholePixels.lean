import Quill.Pattern
import Quill.Proofs.DoubleResults

/-!
# Whole pixels

The bounds of a pattern are rounded to whole pixels: a half is added to a size before it is rounded
down, and taken away from an offset before that is rounded up.  The sum is a double, so it may be
rounded itself, and then it can come to the next whole number.  That happens to the largest double
below a half, and to the odd numbers between `2 ^ 52` and `2 ^ 53`, for which a half more lies half
way between two doubles.  All others come to the nearest whole number.
-/

namespace Quill.Number

/-- The nearest whole number; of two that are equally near the larger one. -/
structure NearestUp (exact : ℚ) (whole : ℤ) : Prop where
  near : |exact - whole| ≤ 1 / 2
  half : |exact - whole| = 1 / 2 → exact < whole

/-- The nearest whole number; of two that are equally near the smaller one. -/
structure NearestDown (exact : ℚ) (whole : ℤ) : Prop where
  near : |exact - whole| ≤ 1 / 2
  half : |exact - whole| = 1 / 2 → whole < exact

/-- Numbers to which a half cannot be added in doubles without coming to a whole number that is too
large: the largest double below a half, and odd numbers beyond `2 ^ 52`. -/
def Overshoots (exact : ℚ) : Prop :=
  exact = 1 / 2 - 1 / 2 ^ 54 ∨
    ∃ whole : ℤ, exact = whole ∧ Odd whole ∧ 2 ^ 52 < |whole| ∧ |whole| < 2 ^ 53

instance (exact : ℚ) : Decidable (Overshoots exact) :=
  decidable_of_iff
    (exact = 1 / 2 - 1 / 2 ^ 54 ∨
      exact = exact.num ∧ Odd exact.num ∧ 2 ^ 52 < |exact.num| ∧ |exact.num| < 2 ^ 53)
    (or_congr_right ⟨fun whole => ⟨exact.num, whole⟩, fun ⟨whole, same, rest⟩ => by
      rw [same, Rat.num_intCast]
      exact ⟨rfl, rest⟩⟩)

section Nearest

variable {exact : ℚ} {whole : ℤ}

theorem nearestUp_iff : NearestUp exact whole ↔ ⌊exact + 1 / 2⌋ = whole := by
  rw [Int.floor_eq_iff]
  constructor
  · rintro ⟨near, half⟩
    obtain ⟨low, high⟩ := abs_le.mp near
    refine ⟨by linarith, ?_⟩
    rcases high.lt_or_eq with less | equal
    · linarith
    · have below := half (by rw [equal]; norm_num)
      linarith
  · rintro ⟨low, high⟩
    refine ⟨abs_le.mpr ⟨by linarith, by linarith⟩, fun half => ?_⟩
    rcases (abs_eq (by norm_num)).mp half with above | below
    · linarith
    · linarith

theorem nearestDown_iff : NearestDown exact whole ↔ NearestUp (-exact) (-whole) := by
  have distance : |(-exact) - ((-whole : ℤ) : ℚ)| = |exact - whole| := by
    rw [Int.cast_neg, neg_sub_neg, abs_sub_comm]
  constructor
  · rintro ⟨near, half⟩
    refine ⟨by rwa [distance], fun tie => ?_⟩
    rw [distance] at tie
    rw [Int.cast_neg]
    exact neg_lt_neg (half tie)
  · rintro ⟨near, half⟩
    rw [distance] at near half
    refine ⟨near, fun tie => ?_⟩
    have less := half tie
    rw [Int.cast_neg] at less
    exact neg_lt_neg_iff.mp less

theorem nearestUp_intCast {other : ℤ} : NearestUp whole other ↔ other = whole := by
  have floor : ⌊(whole + 1 / 2 : ℚ)⌋ = whole := Int.floor_eq_iff.mpr ⟨by linarith, by linarith⟩
  rw [nearestUp_iff, floor, eq_comm]

end Nearest

section Halves

variable {exact result : ℚ} {place multiple : ℤ}

/-- In units below one a half is a whole number of units. -/
theorem add_half_eq_multiple (whole : ℤ) (fine : place < 0) :
    (whole + 1 / 2 : ℚ) = (((2 * whole + 1) * 2 ^ (-1 - place).toNat : ℤ) : ℚ) * 2 ^ place := by
  rw [Int.cast_mul, intCast_two_pow (by omega), mul_assoc, ← zpow_add₀ two_ne_zero, sub_add_cancel,
    zpow_neg_one]
  push_cast
  ring

/-- Doubles from `2 ^ 52` on are whole numbers. -/
theorem Rounds.exists_whole (double : Rounds exact exact place multiple)
    (large : 2 ^ (52 : ℤ) ≤ |exact|) : ∃ whole : ℤ, exact = whole := by
  have high := double.lt_place large
  refine ⟨multiple * 2 ^ place.toNat, double.same.trans ?_⟩
  rw [Int.cast_mul, intCast_two_pow (by omega)]

/-- Doubles below `2 ^ 52` have a place behind the point. -/
theorem Rounds.place_neg (double : Rounds exact exact place multiple)
    (small : |exact| < 2 ^ (52 : ℤ)) : place < 0 := by
  have low := double.place_lt small
  omega

/-- In units of the last place rounding moves a number by a half at most. -/
theorem Rounds.scaled (rounds : Rounds exact result place multiple) {quotient : ℚ}
    (same : exact = quotient * 2 ^ place) :
    2 * |quotient - multiple| ≤ 1 ∧ (2 * |quotient - multiple| = 1 → Even multiple) := by
  have unit : (0 : ℚ) < 2 ^ place := by positivity
  have distance : 2 * |exact - result| = 2 * |quotient - multiple| * 2 ^ place := by
    rw [same, rounds.same, ← sub_mul, abs_mul, abs_of_pos unit, mul_assoc]
  have near := rounds.near
  have even := rounds.even
  rw [distance] at near even
  refine ⟨le_of_mul_le_mul_right (near.trans (one_mul _).ge) unit, fun half => even ?_⟩
  rw [half, one_mul]

/-- A number half way between two multiples of the last place is rounded to the even one. -/
theorem Rounds.of_half (rounds : Rounds exact result place multiple) {whole : ℤ}
    (half : exact = (whole + 1 / 2) * 2 ^ place) :
    Even multiple ∧ (multiple = whole ∨ multiple = whole + 1) := by
  obtain ⟨near, even⟩ := rounds.scaled half
  have double :
      2 * |(whole + 1 / 2 : ℚ) - multiple| = ((|2 * (whole - multiple) + 1| : ℤ) : ℚ) := by
    have twice : ((2 * (whole - multiple) + 1 : ℤ) : ℚ) = 2 * (whole + 1 / 2 - multiple) := by
      push_cast
      ring
    rw [Int.cast_abs, twice, abs_mul, abs_two]
  rw [double] at near even
  have close : |2 * (whole - multiple) + 1| ≤ 1 := by exact_mod_cast near
  rw [abs_le] at close
  have tie : |2 * (whole - multiple) + 1| = 1 := by
    rw [abs_eq zero_le_one]
    omega
  exact ⟨even (by rw [tie, Int.cast_one]), by omega⟩

theorem Rounds.floor_of_fine {whole : ℤ} (rounds : Rounds (whole + 1 / 2) result place multiple)
    (fine : place < 0) : ⌊result⌋ = whole := by
  rw [rounds.eq_of_multiple (add_half_eq_multiple whole fine)]
  exact nearestUp_iff.mp (nearestUp_intCast.mpr rfl)

theorem Rounds.floor_of_unit {whole : ℤ} (rounds : Rounds (whole + 1 / 2) result 0 multiple) :
    ⌊result⌋ = if Odd whole then whole + 1 else whole := by
  have tie : (whole + 1 / 2 : ℚ) = (whole + 1 / 2) * 2 ^ (0 : ℤ) := by rw [zpow_zero, mul_one]
  obtain ⟨⟨half, rfl⟩, near⟩ := rounds.of_half tie
  rw [rounds.same, zpow_zero, mul_one, Int.floor_intCast]
  split
  · rename_i odd
    obtain ⟨other, rfl⟩ := odd
    omega
  · rename_i even
    obtain ⟨other, rfl⟩ := Int.not_odd_iff_even.mp even
    omega

/-- Behind `2 ^ 53` only every other whole number is a double. -/
theorem Rounds.floor_of_two (rounds : Rounds ((2 ^ 53 : ℤ) + 1 / 2) result 1 multiple) :
    ⌊result⌋ = 2 ^ 53 := by
  have quarter : (((2 ^ 53 : ℤ) : ℚ) + 1 / 2) = (2 ^ 52 + 1 / 4) * 2 ^ (1 : ℤ) := by norm_num
  obtain ⟨near, -⟩ := rounds.scaled quarter
  have close : |((2 ^ 52 : ℤ) : ℚ) + 1 / 4 - multiple| ≤ 1 / 2 := by
    push_cast
    linarith
  obtain ⟨low, high⟩ := abs_le.mp close
  have above : (multiple : ℚ) < ((2 ^ 52 + 1 : ℤ) : ℚ) := by
    push_cast at low ⊢
    linarith
  have below : ((2 ^ 52 - 1 : ℤ) : ℚ) < multiple := by
    push_cast at high ⊢
    linarith
  have above : multiple < 2 ^ 52 + 1 := by exact_mod_cast above
  have below : 2 ^ 52 - 1 < multiple := by exact_mod_cast below
  have nearest : multiple = 2 ^ 52 := by omega
  rw [rounds.same, nearest]
  exact Int.floor_eq_iff.mpr ⟨by norm_num, by norm_num⟩

/-- A half more than a large whole number lies half way between two doubles, unless it has a place
of its own below `2 ^ 52` or the next double is farther away. -/
theorem Rounds.floor_of_large {whole : ℤ} (rounds : Rounds (whole + 1 / 2) result place multiple)
    (large : 2 ^ 52 ≤ |whole|) (most : |whole| ≤ 2 ^ 53) :
    ⌊result⌋ = if Odd whole then whole + 1 else whole := by
  rw [abs_le] at most
  rw [le_abs] at large
  by_cases least : whole = -2 ^ 52
  · subst least
    have inner : |((-2 ^ 52 : ℤ) + 1 / 2 : ℚ)| < 2 ^ (52 : ℤ) := by norm_num
    have low := rounds.place_lt inner
    rw [if_neg (by decide), rounds.floor_of_fine (by omega)]
  by_cases last : whole = 2 ^ 53
  · subst last
    have inner : |((2 ^ 53 : ℤ) + 1 / 2 : ℚ)| < 2 ^ (54 : ℤ) := by norm_num
    have outer : 2 ^ (53 : ℤ) ≤ |((2 ^ 53 : ℤ) + 1 / 2 : ℚ)| := by norm_num
    have low := rounds.place_lt inner
    have high := rounds.lt_place outer
    obtain rfl : place = 1 := by omega
    rw [if_neg (by decide), rounds.floor_of_two]
  · have inner : |(whole + 1 / 2 : ℚ)| < 2 ^ (53 : ℤ) := by
      have above : whole + 1 ≤ 2 ^ 53 := by omega
      have above : (whole + 1 : ℚ) ≤ 2 ^ 53 := by exact_mod_cast above
      have below : (-2 ^ 53 : ℚ) ≤ whole := by exact_mod_cast most.1
      rw [zpow_ofNat, abs_lt]
      constructor <;> linarith
    have outer : 2 ^ (52 : ℤ) ≤ |(whole + 1 / 2 : ℚ)| := by
      rw [zpow_ofNat, le_abs]
      rcases large with positive | negative
      · have above : (2 ^ 52 : ℚ) ≤ whole := by exact_mod_cast positive
        exact .inl (by linarith)
      · have below : whole + 1 ≤ -2 ^ 52 := by omega
        have below : (whole + 1 : ℚ) ≤ -2 ^ 52 := by exact_mod_cast below
        exact .inr (by linarith)
    have low := rounds.place_lt inner
    have high := rounds.lt_place outer
    obtain rfl : place = 0 := by omega
    exact rounds.floor_of_unit

/-- A double is a whole number of its units away from a number with a half. -/
theorem Rounds.le_gap {below : ℤ} (double : Rounds exact exact place multiple) (fine : place < 0)
    (less : exact < below + 1 / 2) : (2 : ℚ) ^ place ≤ below + 1 / 2 - exact := by
  obtain ⟨count, gap⟩ : ∃ count : ℤ, below + 1 / 2 - exact = count * 2 ^ place := by
    refine ⟨(2 * below + 1) * 2 ^ (-1 - place).toNat - multiple, ?_⟩
    rw [Int.cast_sub, sub_mul, ← add_half_eq_multiple below fine, ← double.same]
  have unit : (0 : ℚ) < 2 ^ place := by positivity
  have positive : 0 < (count : ℚ) * 2 ^ place := by linarith
  have some : (1 : ℚ) ≤ count := by exact_mod_cast (mul_pos_iff_of_pos_right unit).mp positive
  rw [gap]
  exact le_mul_of_one_le_left unit.le some

variable {place' multiple' : ℤ}

/-- Of the doubles below a half only the largest one comes to one when a half is added. -/
theorem Rounds.eq_below_half (double : Rounds exact exact place multiple) (fine : place < 0)
    (rounds : Rounds (exact + 1 / 2) result place' multiple') (nonneg : 0 ≤ exact + 1 / 2)
    (less : exact < 1 / 2) (carries : 1 ≤ result) : exact = 1 / 2 - 1 / 2 ^ 54 := by
  have inner : |exact + 1 / 2| < 2 ^ (0 : ℤ) := by
    rw [abs_of_nonneg nonneg, zpow_zero]
    linarith
  have low := rounds.place_lt inner
  have step : (2 : ℚ) ^ place' ≤ 2 ^ (-53 : ℤ) := zpow_le_zpow_right₀ one_le_two (by omega)
  have near : 2 * (1 / 2 - exact) ≤ 2 ^ (-53 : ℤ) := by
    have distance := neg_abs_le (exact + 1 / 2 - result)
    have close := rounds.near
    refine le_trans ?_ step
    linarith
  have quarter : 2 ^ (-2 : ℤ) ≤ |exact| := by
    refine le_trans ?_ (le_abs_self exact)
    norm_num at near ⊢
    linarith
  have high := double.lt_place quarter
  have unit : (2 : ℚ) ^ (-54 : ℤ) ≤ 2 ^ place := zpow_le_zpow_right₀ one_le_two (by omega)
  have gap : (2 : ℚ) ^ place ≤ ((0 : ℤ) : ℚ) + 1 / 2 - exact :=
    double.le_gap fine (by rwa [Int.cast_zero, zero_add])
  norm_num at near unit gap ⊢
  linarith

/-- A half more than a small double is not rounded up to the next whole number, unless it is the
largest double below a half. -/
theorem Rounds.eq_of_carry (double : Rounds exact exact place multiple)
    (small : |exact| < 2 ^ (52 : ℤ)) (rounds : Rounds (exact + 1 / 2) result place' multiple')
    (carries : ⌊exact + 1 / 2⌋ + 1 ≤ result) : exact = 1 / 2 - 1 / 2 ^ 54 := by
  have fine := double.place_neg small
  have narrow : place' ≤ 0 := by
    refine rounds.place_nonpos ?_
    rw [zpow_ofNat, abs_lt] at small ⊢
    constructor <;> linarith
  have floor := Int.floor_le (exact + 1 / 2)
  have next := Int.lt_floor_add_one (exact + 1 / 2)
  generalize whole : ⌊exact + 1 / 2⌋ = below at *
  have near : 2 * (below + 1 / 2 - exact) ≤ 2 ^ place' := by
    have distance := neg_abs_le (exact + 1 / 2 - result)
    have close := rounds.near
    linarith
  have step : (2 : ℚ) ^ place' ≤ 1 := zpow_le_one_of_nonpos₀ one_le_two narrow
  have coarser : place + 1 ≤ place' := by
    have gap : (2 : ℚ) ^ place ≤ below + 1 / 2 - exact := double.le_gap fine (by linarith)
    have powers : (2 : ℚ) ^ (place + 1) ≤ 2 ^ place' := by
      rw [zpow_add_one₀ two_ne_zero]
      linarith
    rwa [zpow_le_zpow_iff_right₀ one_lt_two] at powers
  have least := double.least
  have full := rounds.full.resolve_left (by omega)
  have grows : |exact| < 2 ^ (place' + 52) :=
    double.below.trans_le (zpow_le_zpow_right₀ one_le_two (by omega))
  rcases lt_trichotomy below 0 with negative | rfl | positive
  · have less : (below : ℚ) + 1 ≤ 0 := by exact_mod_cast negative
    have larger := grows.trans_le full
    rw [abs_of_neg (by linarith), abs_of_neg (by linarith)] at larger
    linarith
  · rw [Int.cast_zero, zero_add] at next carries
    rw [Int.cast_zero] at floor
    exact double.eq_below_half fine rounds floor (by linarith) carries
  · have one : (1 : ℚ) ≤ below := by exact_mod_cast positive
    rw [abs_of_nonneg (by linarith)] at full grows
    have outer : 2 ^ (0 : ℤ) ≤ |exact + 1 / 2| := by
      rw [abs_of_nonneg (by linarith), zpow_zero]
      linarith
    have high := rounds.lt_place outer
    rw [← intCast_two_pow (by omega)] at full grows
    have fits := Int.le_floor.mpr full
    rw [whole] at fits
    have fits : ((2 ^ (place' + 52).toNat : ℤ) : ℚ) ≤ below := by exact_mod_cast fits
    linarith

/-- The largest double below a half is rounded up to one when a half is added. -/
theorem Rounds.eq_one_of_carry
    (rounds : Rounds (1 / 2 - 1 / 2 ^ 54 + 1 / 2) result place multiple) : result = 1 := by
  have inner : |(1 / 2 - 1 / 2 ^ 54 + 1 / 2 : ℚ)| < 2 ^ (0 : ℤ) := by norm_num
  have outer : 2 ^ (-1 : ℤ) ≤ |(1 / 2 - 1 / 2 ^ 54 + 1 / 2 : ℚ)| := by norm_num
  have low := rounds.place_lt inner
  have high := rounds.lt_place outer
  obtain rfl : place = -53 := by omega
  have tie : (1 / 2 - 1 / 2 ^ 54 + 1 / 2 : ℚ) = ((2 ^ 53 - 1 : ℤ) + 1 / 2) * 2 ^ (-53 : ℤ) := by
    norm_num
  obtain ⟨⟨half, rfl⟩, near⟩ := rounds.of_half tie
  have last : half + half = 2 ^ 53 := by omega
  rw [rounds.same, last]
  norm_num

/-- A half is added to a double without harm, or the sum comes to the next whole number. -/
theorem floor_rounded_add_half (double : IsRounded exact exact)
    (rounds : IsRounded (exact + 1 / 2) result) (most : |exact| ≤ 2 ^ 53) :
    ⌊result⌋ = if Overshoots exact then ⌊exact + 1 / 2⌋ + 1 else ⌊exact + 1 / 2⌋ := by
  obtain ⟨place, multiple, double⟩ := double
  obtain ⟨place', multiple', rounds⟩ := rounds
  rcases lt_or_ge |exact| (2 ^ 52) with small | large
  · by_cases largest : exact = 1 / 2 - 1 / 2 ^ 54
    · subst largest
      rw [rounds.eq_one_of_carry, if_pos (.inl rfl)]
      norm_num
    · have regular : ¬ Overshoots exact := by
        rintro (same | ⟨whole, rfl, -, large, -⟩)
        · exact largest same
        · rw [← Int.cast_abs] at small
          have below : |whole| < 2 ^ 52 := by exact_mod_cast small
          exact absurd below (not_lt.mpr large.le)
      have carries := mt (double.eq_of_carry small rounds) largest
      have range : |exact + 1 / 2| < 2 ^ 53 := by
        rw [abs_lt] at small ⊢
        constructor <;> linarith
      have whole := intCast_eq_multiple ⌊exact + 1 / 2⌋ (rounds.place_nonpos range)
      have least := rounds.le_of_le (whole.ge.trans (Int.floor_le _))
      rw [← whole] at least
      rw [if_neg regular, Int.floor_eq_iff]
      exact ⟨least, not_le.mp carries⟩
  · obtain ⟨whole, rfl⟩ := double.exists_whole large
    rw [← Int.cast_abs] at large most
    have large : 2 ^ 52 ≤ |whole| := by exact_mod_cast large
    have most : |whole| ≤ 2 ^ 53 := by exact_mod_cast most
    have same : ⌊(whole + 1 / 2 : ℚ)⌋ = whole := nearestUp_iff.mp (nearestUp_intCast.mpr rfl)
    have odd : Overshoots whole ↔ Odd whole := by
      constructor
      · rintro (fraction | ⟨other, same, odd, -, -⟩)
        · have low : (0 : ℚ) < whole := by
            rw [fraction]
            norm_num
          have high : (whole : ℚ) < 1 := by
            rw [fraction]
            norm_num
          have low : 0 < whole := by exact_mod_cast low
          have high : whole < 1 := by exact_mod_cast high
          omega
        · rwa [Int.cast_inj.mp same]
      · rintro ⟨half, rfl⟩
        refine .inr ⟨_, rfl, ⟨half, rfl⟩, ?_, ?_⟩
        · rw [le_abs] at large
          rw [lt_abs]
          omega
        · rw [abs_le] at most
          rw [abs_lt]
          omega
    rw [rounds.floor_of_large large most, same]
    exact if_congr odd.symm rfl rfl

end Halves

section Floors

variable {value : Binary}

theorem Binary.magnitude_eq_div (value : Binary) :
    value.magnitude = value.numerator / value.denominator := by
  rw [magnitude, ← pow_toNat_div, numerator, denominator, twoPow_eq, twoPow_eq]
  push_cast
  rw [mul_div_assoc]

/-- A quotient of natural numbers that is rounded up. -/
theorem ceil_natCast_div {numerator denominator : ℕ} (positive : 0 < denominator) :
    ⌈(numerator / denominator : ℚ)⌉ =
      (((numerator + denominator - 1) / denominator : ℕ) : ℤ) := by
  have unit : (0 : ℚ) < denominator := by exact_mod_cast positive
  have least := Nat.div_mul_le_self (numerator + denominator - 1) denominator
  have most := Nat.lt_div_mul_add (a := numerator + denominator - 1) positive
  generalize (numerator + denominator - 1) / denominator = quotient at *
  have low : quotient * denominator < numerator + denominator := by omega
  have high : numerator ≤ quotient * denominator := by omega
  have low : (quotient : ℚ) * denominator < numerator + denominator := by exact_mod_cast low
  have high : (numerator : ℚ) ≤ quotient * denominator := by exact_mod_cast high
  rw [Int.ceil_eq_iff, lt_div_iff₀ unit, div_le_iff₀ unit, Int.cast_natCast]
  exact ⟨by linarith, high⟩

theorem Binary.floor_eq (value : Binary) : value.floor = ⌊value.signed⌋ := by
  have positive : 0 < value.denominator := Nat.two_pow_pos _
  rw [floor, signed, magnitude_eq_div]
  split
  · rw [Int.floor_neg, ceil_natCast_div positive]
  · exact (Rat.floor_natCast_div_natCast _ _).symm

theorem Binary.ceil_eq (value : Binary) : value.ceil = ⌈value.signed⌉ := by
  have positive : 0 < value.denominator := Nat.two_pow_pos _
  rw [ceil, signed, magnitude_eq_div]
  split
  · rw [Int.ceil_neg, Rat.floor_natCast_div_natCast, Int.natCast_div]
  · rw [ceil_natCast_div positive]

/-- Rounding into a range, for finite doubles. -/
theorem within_floor {x : Float} (finite : isFinite x = true) (low high : ℤ) :
    (Reading.of x).within low high Binary.floor = max low (min high ⌊valueOf x⌋) := by
  obtain ⟨value, read, -, stands⟩ := exists_of_isFinite finite
  rw [read, Reading.within, value.floor_eq, stands]

theorem within_ceil {x : Float} (finite : isFinite x = true) (low high : ℤ) :
    (Reading.of x).within low high Binary.ceil = max low (min high ⌈valueOf x⌉) := by
  obtain ⟨value, read, -, stands⟩ := exists_of_isFinite finite
  rw [read, Reading.within, value.ceil_eq, stands]

end Floors

section Halving

variable {x : Float}

theorem isFinite_half : isFinite 0.5 = true := by decide +kernel

theorem valueOf_half : valueOf 0.5 = 1 / 2 := by decide +kernel

theorem inRange_add_of_small {offset : ℚ} (most : |valueOf x| ≤ 2 ^ 53) (small : |offset| < 1) :
    InRange (valueOf x + offset) := by
  refine .of_small ?_
  calc |valueOf x + offset|
    _ ≤ |valueOf x| + |offset| := abs_add_le _ _
    _ < 2 ^ 64 := by linarith

theorem isRounded_add_half (finite : isFinite x = true) (most : |valueOf x| ≤ 2 ^ 53) :
    isFinite (x + 0.5) = true ∧ IsRounded (valueOf x + 1 / 2) (valueOf (x + 0.5)) := by
  have range : InRange (valueOf x + valueOf 0.5) :=
    inRange_add_of_small most (by rw [valueOf_half]; norm_num)
  have rounds := isRounded_add finite isFinite_half range
  rw [valueOf_half] at rounds
  exact ⟨(isFinite_add finite isFinite_half).mpr range, rounds⟩

theorem isRounded_sub_half (finite : isFinite x = true) (most : |valueOf x| ≤ 2 ^ 53) :
    isFinite (x - 0.5) = true ∧ IsRounded (-valueOf x + 1 / 2) (-valueOf (x - 0.5)) := by
  have half := isFinite_neg isFinite_half
  have range : InRange (valueOf x + valueOf (-0.5)) :=
    inRange_add_of_small most (by rw [valueOf_neg, valueOf_half]; norm_num)
  have rounds := (isRounded_add finite half range).neg
  rw [valueOf_neg, valueOf_half, neg_add, neg_neg] at rounds
  rw [float_sub_eq_add_neg]
  exact ⟨(isFinite_add finite half).mpr range, rounds⟩

/-- A half more than a negative double is less than one, also when it is rounded. -/
theorem add_half_lt_one (finite : isFinite x = true) (negative : valueOf x < 0) :
    isFinite (x + 0.5) = true ∧ valueOf (x + 0.5) < 1 := by
  have range : InRange (valueOf x + valueOf 0.5) := by
    rw [valueOf_half]
    rcases lt_or_ge (valueOf x) (-1) with low | high
    · refine lt_of_le_of_lt (abs_le_abs_of_nonpos ?_ ?_) (inRange_valueOf finite) <;> linarith
    · refine .of_small (abs_lt.mpr ?_)
      constructor <;> linarith
  obtain ⟨place, multiple, rounds⟩ := isRounded_add finite isFinite_half range
  refine ⟨(isFinite_add finite isFinite_half).mpr range, ?_⟩
  rw [valueOf_half] at rounds
  rcases le_total (valueOf x + 1 / 2) 0 with nonpos | nonneg
  · have zero : ((0 : ℤ) : ℚ) * 2 ^ place ≤ -(valueOf x + 1 / 2) := by
      rw [Int.cast_zero, zero_mul]
      exact neg_nonneg.mpr nonpos
    have least := rounds.neg.le_of_le zero
    rw [Int.cast_zero, zero_mul] at least
    linarith
  · have small : |valueOf x + 1 / 2| < 2 ^ 53 := by
      rw [abs_of_nonneg nonneg]
      linarith
    have unit : (2 : ℚ) ^ place ≤ 1 :=
      zpow_le_one_of_nonpos₀ one_le_two (rounds.place_nonpos small)
    have near := rounds.near
    have distance := neg_abs_le (valueOf x + 1 / 2 - valueOf (x + 0.5))
    linarith

theorem infinite_add_half (infinite : Reading.of x = .infinite true) :
    Reading.of (x + 0.5) = .infinite true := by
  have parts : (Reading.of (x + 0.5)).unpacked = .infinity .negative := by
    cases Parts.of_isFinite isFinite_half with
    | zero sign parts stands =>
        rw [valueOf_half] at stands
        norm_num at stands
    | nonzero value canonical positive parts stands =>
        have sum : Float.Model.UnpackedFloat.add Float.Model.Format.binary64
            (Reading.infinite true).unpacked (Reading.of 0.5).unpacked = .infinity .negative := by
          rw [parts]
          rfl
        have packable : Packable (.infinity .negative) := trivial
        rw [add_eq, infinite, sum, packable.unpacked_packed]
  cases read : Reading.of (x + 0.5) with
  | undefined =>
      rw [read] at parts
      cases parts
  | infinite negative =>
      rw [read] at parts
      cases negative with
      | false => cases parts
      | true => rfl
  | finite value =>
      rw [read, Reading.unpacked] at parts
      split at parts <;> cases parts

end Halving

end Quill.Number

namespace Quill

open Number

namespace PatternBounds

variable {size coordinate : Float}

theorem extent_eq (finite : isFinite size = true) (nonneg : 0 ≤ valueOf size)
    (most : valueOf size ≤ 2 ^ 53) :
    extent size = if Overshoots (valueOf size) then ⌊valueOf size + 1 / 2⌋ + 1
      else ⌊valueOf size + 1 / 2⌋ := by
  have small : |valueOf size| ≤ 2 ^ 53 := by rwa [abs_of_nonneg nonneg]
  obtain ⟨sum, rounds⟩ := isRounded_add_half finite small
  have least : 0 ≤ ⌊valueOf size + 1 / 2⌋ := Int.floor_nonneg.mpr (by linarith)
  have most : ⌊valueOf size + 1 / 2⌋ < 2 ^ 53 + 1 := by
    rw [Int.floor_lt]
    push_cast
    linarith
  rw [extent, within_floor sum, floor_rounded_add_half (isRounded_valueOf finite) rounds small]
  split <;> omega

theorem origin_eq (finite : isFinite coordinate = true) (most : |valueOf coordinate| ≤ 2 ^ 53) :
    -origin coordinate =
      if Overshoots (-valueOf coordinate) then ⌊-valueOf coordinate + 1 / 2⌋ + 1
      else ⌊-valueOf coordinate + 1 / 2⌋ := by
  obtain ⟨difference, rounds⟩ := isRounded_sub_half finite most
  have double := (isRounded_valueOf finite).neg
  have small : |-valueOf coordinate| ≤ 2 ^ 53 := by rwa [abs_neg]
  have floor := floor_rounded_add_half double rounds small
  rw [Int.floor_neg] at floor
  have least : -(2 ^ 53) ≤ ⌊-valueOf coordinate + 1 / 2⌋ := by
    rw [abs_le] at small
    rw [Int.le_floor]
    push_cast
    linarith
  have most : ⌊-valueOf coordinate + 1 / 2⌋ < 2 ^ 53 + 1 := by
    rw [abs_le] at small
    rw [Int.floor_lt]
    push_cast
    linarith
  rw [origin, within_ceil difference, ← floor]
  split at floor <;> omega

theorem extent_of_negative (negative : size < 0) : extent size = 0 := by
  rcases lt_zero_cases negative with infinite | ⟨finite, below⟩
  · rw [extent, infinite_add_half infinite]
    rfl
  · obtain ⟨sum, less⟩ := add_half_lt_one finite below
    have low : ⌊valueOf (size + 0.5)⌋ < 1 := by
      rw [Int.floor_lt, Int.cast_one]
      exact less
    rw [extent, within_floor sum]
    omega

end PatternBounds

/-- An extent is the nearest whole number, a half going to the larger one, and one more where adding
the half overshoots.  Of whole extents those that do not overshoot are kept. -/
structure ExtentNear (exact : ℚ) (extent : ℤ) : Prop where
  nearest : NearestUp exact extent ↔ ¬ Overshoots exact
  overshot : Overshoots exact → NearestUp exact (extent - 1)
  whole : ∀ whole : ℤ, exact = whole → (extent = whole ↔ ¬ Overshoots exact)

/-- An origin is the nearest whole number, a half going to the smaller one, and one less where
taking the half away overshoots.  Of whole origins those that do not overshoot are kept. -/
structure OriginNear (exact : ℚ) (origin : ℤ) : Prop where
  nearest : NearestDown exact origin ↔ ¬ Overshoots (-exact)
  overshot : Overshoots (-exact) → NearestDown exact (origin + 1)
  whole : ∀ whole : ℤ, exact = whole → (origin = whole ↔ ¬ Overshoots (-exact))

/-- Coordinates up to `2 ^ 53` on both sides. -/
structure Located (coordinate : Float) : Prop where
  finite : isFinite coordinate = true
  most : |valueOf coordinate| ≤ 2 ^ 53

/-- Sizes up to `2 ^ 53`. -/
structure Sized (size : Float) : Prop where
  finite : isFinite size = true
  least : 0 ≤ valueOf size
  most : valueOf size ≤ 2 ^ 53

/-- What becomes of a size. -/
structure Measures (size : Float) (extent : ℤ) : Prop where
  near : Sized size → ExtentNear (valueOf size) extent
  negative : size < 0 → extent = 0

section Near

variable {exact : ℚ} {extent origin : ℤ} {x y width height : Float}

theorem ExtentNear.of_eq
    (same : extent = if Overshoots exact then ⌊exact + 1 / 2⌋ + 1 else ⌊exact + 1 / 2⌋) :
    ExtentNear exact extent := by
  have nearest : NearestUp exact extent ↔ ¬ Overshoots exact := by
    rw [nearestUp_iff, same]
    split
    · rename_i overshoots
      exact ⟨fun equal => absurd equal (by omega), fun regular => (regular overshoots).elim⟩
    · rename_i regular
      exact ⟨fun _ => regular, fun _ => rfl⟩
  refine ⟨nearest, fun overshoots => ?_, fun whole equal => ?_⟩
  · rw [nearestUp_iff, same, if_pos overshoots, add_sub_cancel_right]
  · rw [← nearest, equal, nearestUp_intCast]

theorem OriginNear.of_neg (near : ExtentNear (-exact) (-origin)) : OriginNear exact origin := by
  refine ⟨nearestDown_iff.trans near.nearest, fun overshoots => ?_, fun whole equal => ?_⟩
  · rw [nearestDown_iff, neg_add]
    exact near.overshot overshoots
  · have opposite : -exact = ((-whole : ℤ) : ℚ) := by rw [equal, Int.cast_neg]
    rw [← near.whole (-whole) opposite, neg_inj]

theorem Located.originNear {coordinate : Float} (located : Located coordinate) :
    OriginNear (valueOf coordinate) (PatternBounds.origin coordinate) :=
  .of_neg (.of_eq (PatternBounds.origin_eq located.finite located.most))

theorem measures_extent (size : Float) : Measures size (PatternBounds.extent size) where
  near sized := .of_eq (PatternBounds.extent_eq sized.finite sized.least sized.most)
  negative := PatternBounds.extent_of_negative

/-- The bounds of a pattern are the nearest whole numbers, but for the few where a half cannot be
added without overshooting. -/
theorem bounds_are_nearest_unless_overshot (left : Located x) (top : Located y) :
    OriginNear (valueOf x) (PatternBounds.ofRectangle x y width height).x ∧
      OriginNear (valueOf y) (PatternBounds.ofRectangle x y width height).y ∧
      Measures width (PatternBounds.ofRectangle x y width height).width ∧
      Measures height (PatternBounds.ofRectangle x y width height).height :=
  ⟨left.originNear, top.originNear, measures_extent width, measures_extent height⟩

/-- A half that goes to the smaller number, an odd number beyond `2 ^ 52`, and a negative size. -/
theorem bounds_on_halves : OriginNear (valueOf (-0.5)) (-1) ∧
    ExtentNear (valueOf 4503599627370497) 4503599627370498 ∧ Measures (-4) 0 := by
  have half : Located (-0.5) := ⟨by decide +kernel, by decide +kernel⟩
  have size : Sized 4503599627370497 := ⟨by decide +kernel, by decide +kernel, by decide +kernel⟩
  have bounds : PatternBounds.ofRectangle (-0.5) (-0.5) 4503599627370497 (-4) =
      ⟨-1, -1, 4503599627370498, 0⟩ := by decide +kernel
  have near := @bounds_are_nearest_unless_overshot (-0.5) (-0.5) 4503599627370497 (-4) half half
  rw [bounds] at near
  obtain ⟨origin, -, width, height⟩ := near
  exact ⟨origin, width.near size, height⟩

/-- A whole offset and a whole size that are not kept, and a size below a half that is not rounded
down. -/
theorem halves_overshoot :
    PatternBounds.ofRectangle (-4503599627370497) 0 4503599627370497 0.49999999999999994 =
        ⟨-4503599627370498, 0, 4503599627370498, 1⟩ ∧
      valueOf (-4503599627370497) = -4503599627370497 ∧
      valueOf 4503599627370497 = 4503599627370497 ∧
      1 / 2 < |valueOf 4503599627370497 - 4503599627370498| ∧
      1 / 2 < |valueOf 0.49999999999999994 - 1| := by
  decide +kernel

end Near

end Quill
