import Quill.Proofs.Doubles

/-!
# Numbers that round to a double

The numbers that have a given double as their nearest one fill an interval around it.  Its ends lie
half way to the two neighbours, and belong to it if the significand is even; below a power of two
the neighbour is half as far away.  Rounding exactly leads from every quotient in the interval to
the bit pattern of the double.
-/

namespace Quill.Number

/-- A quotient between two ends, which belong to the range if it is closed. -/
structure Within (closed : Prop) (low high quotient : ℚ) : Prop where
  low_le : low ≤ quotient
  le_high : quotient ≤ high
  inner : closed ∨ low < quotient ∧ quotient < high

theorem Within.scale {closed : Prop} {low high quotient factor : ℚ}
    (within : Within closed low high quotient) (positive : 0 < factor) :
    Within closed (low * factor) (high * factor) (quotient * factor) := by
  refine ⟨?_, ?_, within.inner.imp_right fun ⟨above, below⟩ => ⟨?_, ?_⟩⟩
  · exact mul_le_mul_of_nonneg_right within.low_le positive.le
  · exact mul_le_mul_of_nonneg_right within.le_high positive.le
  · exact mul_lt_mul_of_pos_right above positive
  · exact mul_lt_mul_of_pos_right below positive

section Powers

/-- A power with an integer exponent is a quotient of two powers, one of which is one. -/
theorem pow_toNat_div (base : ℚ) (exponent : ℤ) :
    base ^ exponent.toNat / base ^ (-exponent).toNat = base ^ exponent := by
  rcases le_total 0 exponent with nonneg | nonpos
  · have none : (-exponent).toNat = 0 := by omega
    rw [none, pow_zero, div_one, ← zpow_natCast, Int.toNat_of_nonneg nonneg]
  · have none : exponent.toNat = 0 := by omega
    rw [none, pow_zero, one_div, ← zpow_natCast, ← zpow_neg, Int.toNat_of_nonneg (by omega),
      neg_neg]

/-- Scaling a quotient by a power, on whichever side it is written. -/
theorem scaled_div (base numerator denominator : ℚ) (exponent : ℤ) :
    numerator * base ^ (-exponent).toNat / (denominator * base ^ exponent.toNat) =
      numerator / denominator * base ^ (-exponent) := by
  rw [mul_div_mul_comm, ← pow_toNat_div base (-exponent), neg_neg]

end Powers

section Rounding

variable {numerator denominator nearest : ℕ}

/-- A quotient that is within a half of a number rounds to it; at a distance of a half the number
has to be even. -/
theorem roundHalfEven_eq (positive : 0 < denominator)
    (within : Within (nearest % 2 = 0) (nearest - 1 / 2) (nearest + 1 / 2)
      (numerator / denominator)) : roundHalfEven numerator denominator = nearest := by
  have scale : (0 : ℚ) < denominator := by exact_mod_cast positive
  have whole := Nat.div_add_mod numerator denominator
  have rest := Nat.mod_lt numerator positive
  have least : 2 * (denominator * nearest) ≤ 2 * numerator + denominator := by
    have := (le_div_iff₀ scale).mp within.low_le
    have : (2 * (denominator * nearest) : ℚ) ≤ 2 * numerator + denominator := by linarith
    exact_mod_cast this
  have most : 2 * numerator ≤ 2 * (denominator * nearest) + denominator := by
    have := (div_le_iff₀ scale).mp within.le_high
    have : (2 * numerator : ℚ) ≤ 2 * (denominator * nearest) + denominator := by linarith
    exact_mod_cast this
  have inner : nearest % 2 = 0 ∨
      2 * (denominator * nearest) < 2 * numerator + denominator ∧
        2 * numerator < 2 * (denominator * nearest) + denominator := by
    refine within.inner.imp_right fun ⟨above, below⟩ => ?_
    have above := (lt_div_iff₀ scale).mp above
    have below := (div_lt_iff₀ scale).mp below
    have above : (2 * (denominator * nearest) : ℚ) < 2 * numerator + denominator := by linarith
    have below : (2 * numerator : ℚ) < 2 * (denominator * nearest) + denominator := by linarith
    exact ⟨by exact_mod_cast above, by exact_mod_cast below⟩
  have between : numerator / denominator = nearest ∨ numerator / denominator + 1 = nearest := by
    have notAbove : numerator / denominator < nearest + 1 := by
      by_contra above
      have := Nat.mul_le_mul_left denominator (Nat.le_of_not_lt above)
      rw [Nat.mul_add] at this
      omega
    have notBelow : nearest < numerator / denominator + 2 := by
      by_contra below
      have := Nat.mul_le_mul_left denominator (Nat.le_of_not_lt below)
      rw [Nat.mul_add] at this
      omega
    omega
  have step : denominator * (numerator / denominator + 1) =
      denominator * (numerator / denominator) + denominator := Nat.mul_succ _ _
  simp only [roundHalfEven]
  rcases between with rfl | rfl
  · split
    · rfl
    · split <;> omega
  · rw [step] at least inner
    split
    · omega
    · split <;> omega

theorem log2_bounds (positive : 0 < numerator) :
    (2 : ℚ) ^ (numerator.log2 : ℤ) ≤ numerator ∧
      (numerator : ℚ) < 2 ^ (numerator.log2 + 1 : ℤ) := by
  constructor
  · rw [zpow_natCast]
    exact_mod_cast Nat.log2_self_le positive.ne'
  · have above := Nat.lt_log2_self (n := numerator)
    exact_mod_cast above

/-- A quotient lies between the power of two that is chosen for it and the next one. -/
theorem floorLog2_bounds (numeratorPos : 0 < numerator) (denominatorPos : 0 < denominator) :
    (2 : ℚ) ^ floorLog2 numerator denominator ≤ numerator / denominator ∧
      (numerator / denominator : ℚ) < 2 ^ (floorLog2 numerator denominator + 1) := by
  have scale : (0 : ℚ) < denominator := by exact_mod_cast denominatorPos
  obtain ⟨numeratorLow, numeratorHigh⟩ := log2_bounds numeratorPos
  obtain ⟨denominatorLow, denominatorHigh⟩ := log2_bounds denominatorPos
  have low : (2 : ℚ) ^ ((numerator.log2 : ℤ) - denominator.log2 - 1) ≤ numerator / denominator := by
    rw [le_div_iff₀ scale]
    calc
      (2 : ℚ) ^ ((numerator.log2 : ℤ) - denominator.log2 - 1) * denominator ≤
          2 ^ ((numerator.log2 : ℤ) - denominator.log2 - 1) * 2 ^ (denominator.log2 + 1 : ℤ) :=
        mul_le_mul_of_nonneg_left denominatorHigh.le (by positivity)
      _ = 2 ^ (numerator.log2 : ℤ) := by
        rw [← zpow_add₀ two_ne_zero]
        congr 1
        omega
      _ ≤ numerator := numeratorLow
  have high : (numerator / denominator : ℚ) <
      2 ^ ((numerator.log2 : ℤ) - denominator.log2 + 1) := by
    rw [div_lt_iff₀ scale]
    calc
      (numerator : ℚ) < 2 ^ (numerator.log2 + 1 : ℤ) := numeratorHigh
      _ = 2 ^ ((numerator.log2 : ℤ) - denominator.log2 + 1) * 2 ^ (denominator.log2 : ℤ) := by
        rw [← zpow_add₀ two_ne_zero]
        congr 1
        omega
      _ ≤ 2 ^ ((numerator.log2 : ℤ) - denominator.log2 + 1) * denominator :=
        mul_le_mul_of_nonneg_left denominatorLow (by positivity)
  have tested (difference : ℤ) :
      denominator * twoPow difference.toNat ≤ numerator * twoPow (-difference).toNat ↔
        (2 : ℚ) ^ difference ≤ numerator / denominator := by
    rw [le_div_iff₀ scale, ← pow_toNat_div, div_mul_eq_mul_div, div_le_iff₀ (by positivity),
      mul_comm _ (denominator : ℚ)]
    simp only [twoPow_eq]
    exact_mod_cast Iff.rfl
  rw [floorLog2]
  split
  · rename_i above
    exact ⟨(tested _).mp above, high⟩
  · rename_i below
    rw [tested, not_le] at below
    rw [sub_add_cancel]
    exact ⟨low, below⟩

end Rounding

namespace Binary

/-- The distance to the lower end of the numbers that round to a double, in units of its last place.
A power of two has a nearer neighbour below, down to the smallest exponent. -/
def reach (value : Binary) : ℚ :=
  if value.significand = twoPow 52 ∧ -1074 < value.exponent then 1 / 4 else 1 / 2

/-- A number that rounds to a double. -/
def Attracts (value : Binary) (quotient : ℚ) : Prop :=
  Within (value.significand % 2 = 0) ((value.significand - value.reach) * 2 ^ value.exponent)
    ((value.significand + 1 / 2) * 2 ^ value.exponent) quotient

variable {value : Binary} {numerator denominator : ℕ} {quotient : ℚ}

theorem reach_le (value : Binary) : value.reach ≤ 1 / 2 := by
  rw [reach]
  split <;> norm_num

/-- In units of the last place a number that rounds to a double is within a half of it. -/
theorem Attracts.unscale (attracts : value.Attracts quotient) :
    Within (value.significand % 2 = 0) (value.significand - value.reach)
      (value.significand + 1 / 2) (quotient * 2 ^ (-value.exponent)) := by
  have scaled := Within.scale attracts (show (0 : ℚ) < 2 ^ (-value.exponent) by positivity)
  simpa only [mul_assoc, ← zpow_add₀ (two_ne_zero : (2 : ℚ) ≠ 0), add_neg_cancel, zpow_zero,
    mul_one] using scaled

theorem Attracts.pos (attracts : value.Attracts quotient) (positive : 0 < value.significand) :
    0 < quotient := by
  have least : (1 : ℚ) ≤ value.significand := by exact_mod_cast positive
  have reach := value.reach_le
  have unit : (0 : ℚ) < 2 ^ value.exponent := by positivity
  have low : 0 < ((value.significand : ℚ) - value.reach) * 2 ^ value.exponent :=
    mul_pos (by linarith) unit
  exact lt_of_lt_of_le low attracts.low_le

theorem Attracts.floorLog2_le (attracts : value.Attracts (numerator / denominator))
    (canonical : value.Canonical) (numeratorPos : 0 < numerator)
    (denominatorPos : 0 < denominator) :
    floorLog2 numerator denominator ≤ value.exponent + 52 := by
  obtain ⟨low, -⟩ := floorLog2_bounds numeratorPos denominatorPos
  have significand : (value.significand : ℚ) + 1 / 2 < 2 ^ (53 : ℤ) := by
    have most : (value.significand + 1 : ℚ) ≤ 2 ^ 53 := by exact_mod_cast canonical.significand
    norm_num at most ⊢
    linarith
  have high : (2 : ℚ) ^ floorLog2 numerator denominator < 2 ^ (53 + value.exponent) := by
    rw [zpow_add₀ two_ne_zero]
    refine lt_of_le_of_lt (low.trans attracts.le_high) ?_
    exact mul_lt_mul_of_pos_right significand (by positivity)
  rw [zpow_lt_zpow_iff_right₀ one_lt_two] at high
  omega

/-- Below the power of two that a significand of 53 bits begins with, only the power itself attracts
numbers, and it does so from a quarter of a unit away. -/
theorem Attracts.of_below (attracts : value.Attracts quotient) (canonical : value.Canonical)
    (inner : -1074 < value.exponent) (below : quotient < 2 ^ (value.exponent + 52)) :
    value.significand = 2 ^ 52 ∧
      Within True ((2 ^ 53 : ℕ) - 1 / 2) ((2 ^ 53 : ℕ) + 1 / 2)
        (quotient * 2 ^ (-(value.exponent - 1))) := by
  have full : 2 ^ 52 ≤ value.significand := canonical.full.resolve_left inner.ne'
  have unscaled := attracts.unscale
  have high : quotient * 2 ^ (-value.exponent) < 2 ^ 52 := by
    have scaled := mul_lt_mul_of_pos_right below
      (show (0 : ℚ) < 2 ^ (-value.exponent) by positivity)
    rw [← zpow_add₀ two_ne_zero, show value.exponent + 52 + -value.exponent = (52 : ℕ) by omega,
      zpow_natCast] at scaled
    exact scaled
  have single : value.significand = 2 ^ 52 := by
    by_contra other
    have more : (2 ^ 52 + 1 : ℚ) ≤ value.significand := by
      have : 2 ^ 52 + 1 ≤ value.significand := by omega
      exact_mod_cast this
    have reach := value.reach_le
    have low := unscaled.low_le
    linarith
  have narrow : value.reach = 1 / 4 := if_pos ⟨single, inner⟩
  have twice : quotient * 2 ^ (-(value.exponent - 1)) = 2 * (quotient * 2 ^ (-value.exponent)) := by
    rw [show -(value.exponent - 1) = -value.exponent + 1 by omega, zpow_add_one₀ two_ne_zero]
    ring
  have low := unscaled.low_le
  rw [narrow, single] at low
  push_cast at low
  refine ⟨single, ?_, ?_, .inl trivial⟩
  · rw [twice]
    push_cast
    linarith
  · rw [twice]
    push_cast
    linarith

/-- A quotient below that power of two is rounded in units half as large. -/
theorem Attracts.exponent_of_below (attracts : value.Attracts (numerator / denominator))
    (canonical : value.Canonical) (inner : -1074 < value.exponent)
    (smaller : (numerator / denominator : ℚ) < 2 ^ (value.exponent + 52))
    (numeratorPos : 0 < numerator) (denominatorPos : 0 < denominator) :
    max (-1074) (floorLog2 numerator denominator - 52) = value.exponent - 1 := by
  obtain ⟨low, below⟩ := floorLog2_bounds numeratorPos denominatorPos
  obtain ⟨-, within⟩ := attracts.of_below canonical inner smaller
  have least : (2 : ℚ) ^ (52 : ℤ) ≤ numerator / denominator * 2 ^ (-(value.exponent - 1)) := by
    refine le_trans ?_ within.low_le
    norm_num
  have above : (2 : ℚ) ^ (value.exponent + 51) < 2 ^ (floorLog2 numerator denominator + 1) := by
    refine lt_of_le_of_lt ?_ below
    have unscaled := mul_le_mul_of_nonneg_right least
      (show (0 : ℚ) ≤ 2 ^ (value.exponent - 1) by positivity)
    rw [mul_assoc, ← zpow_add₀ two_ne_zero, ← zpow_add₀ two_ne_zero, neg_add_cancel, zpow_zero,
      mul_one, show 52 + (value.exponent - 1) = value.exponent + 51 by omega] at unscaled
    exact unscaled
  have highest := lt_of_le_of_lt low smaller
  rw [zpow_lt_zpow_iff_right₀ one_lt_two] at above highest
  omega

theorem magnitudeBits_lt (canonical : value.Canonical) : value.magnitudeBits < infinityBits := by
  obtain ⟨significand, least, most, -⟩ := canonical
  rw [magnitudeBits, infinityBits, twoPow_eq]
  omega

/-- The double that attracts a quotient is the nearest one.  A quotient below the power of two that
the double is rounds to twice the significand, in units half as large. -/
theorem Attracts.nearestBits_eq (attracts : value.Attracts (numerator / denominator))
    (canonical : value.Canonical) (numeratorPos : 0 < numerator)
    (denominatorPos : 0 < denominator) :
    nearestBits numerator denominator = value.magnitudeBits := by
  have highest := attracts.floorLog2_le canonical numeratorPos denominatorPos
  have least := canonical.least
  obtain ⟨-, below⟩ := floorLog2_bounds numeratorPos denominatorPos
  have round {exponent : ℤ} {nearest : ℕ} (within : Within (nearest % 2 = 0) (nearest - 1 / 2)
      (nearest + 1 / 2) (numerator / denominator * 2 ^ (-exponent))) :
      roundHalfEven (numerator * twoPow (-exponent).toNat) (denominator * twoPow exponent.toNat) =
        nearest := by
    refine roundHalfEven_eq (Nat.mul_pos denominatorPos (Nat.two_pow_pos _)) ?_
    rw [← scaled_div] at within
    simp only [twoPow_eq]
    exact_mod_cast within
  rw [nearestBits, if_neg numeratorPos.ne']
  dsimp only
  by_cases same : max (-1074) (floorLog2 numerator denominator - 52) = value.exponent
  · have unscaled := attracts.unscale
    have reach := value.reach_le
    have rounded := round ⟨by linarith [unscaled.low_le], unscaled.le_high,
      unscaled.inner.imp_right fun ⟨above, below⟩ => ⟨by linarith, below⟩⟩
    rw [same, rounded]
    exact min_eq_right (magnitudeBits_lt canonical).le
  · have inner : -1074 < value.exponent := by omega
    have smaller : (numerator / denominator : ℚ) < 2 ^ (value.exponent + 52) :=
      lt_of_lt_of_le below (zpow_le_zpow_right₀ one_le_two (by omega))
    obtain ⟨single, within⟩ := attracts.of_below canonical inner smaller
    have chosen := attracts.exponent_of_below canonical inner smaller numeratorPos denominatorPos
    have rounded := round ⟨within.low_le, within.le_high, .inl (by norm_num)⟩
    rw [chosen, rounded, magnitudeBits, infinityBits, single, twoPow_eq]
    have most := canonical.most
    omega

end Binary

/-- A finite double is the nearest one to every quotient that it attracts. -/
theorem nearest_eq_of_attracts {value : Float} {binary : Binary} {numerator denominator : ℕ}
    (finite : Reading.of value = .finite binary)
    (attracts : binary.Attracts (numerator / denominator)) (numeratorPos : 0 < numerator)
    (denominatorPos : 0 < denominator) :
    nearest binary.negative numerator denominator = value := by
  obtain ⟨canonical, -, whole⟩ := Reading.ofMagnitude_of_finite finite
  rw [nearest, attracts.nearestBits_eq canonical numeratorPos denominatorPos, whole]

theorem nearest_eq_of_zero {value : Float} {binary : Binary}
    (finite : Reading.of value = .finite binary) (zero : binary.significand = 0) :
    nearest binary.negative 0 1 = value := by
  obtain ⟨canonical, -, whole⟩ := Reading.ofMagnitude_of_finite finite
  have least : binary.exponent = -1074 := canonical.full.resolve_right (by omega)
  have none : binary.magnitudeBits = nearestBits 0 1 := by
    rw [Binary.magnitudeBits, zero, least]
    rfl
  rw [nearest, ← none, whole]

end Quill.Number
