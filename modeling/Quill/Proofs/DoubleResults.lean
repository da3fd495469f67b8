import Quill.Proofs.DoubleOrder
import Quill.Proofs.SignificantDigits

/-!
# Results of sums and products

A sum, a difference or a product of finite doubles that is not too large is the exact one, rounded
to the nearest multiple of a power of two, and to the even one of two that are equally near.  The
power leaves room for 53 bits.  So whatever is a multiple of it already is not changed: what some
double stands for is kept, and whole numbers below `2 ^ 53` are summed and multiplied without loss.
-/

namespace Quill.Number

open Float.Model Float.Model.UnpackedFloat

section Grid

variable {exact result : ℚ} {place multiple : ℤ}

/-- A number is rounded to a multiple of a power of two: the nearest one, or the even one of two
that are equally near.  The power is that of the last place which a number of its size has room for
with 53 bits, and no smaller than the smallest there is. -/
structure Rounds (exact result : ℚ) (place multiple : ℤ) : Prop where
  same : result = multiple * 2 ^ place
  near : 2 * |exact - result| ≤ 2 ^ place
  even : 2 * |exact - result| = 2 ^ place → Even multiple
  least : -1074 ≤ place
  below : |exact| < 2 ^ (place + 53)
  full : place = -1074 ∨ 2 ^ (place + 52) ≤ |exact|

/-- The result of rounding a number to a double, whatever its place. -/
def IsRounded (exact result : ℚ) : Prop :=
  ∃ place multiple, Rounds exact result place multiple

theorem Rounds.neg (rounds : Rounds exact result place multiple) :
    Rounds (-exact) (-result) place (-multiple) := by
  have distance : |(-exact) - -result| = |exact - result| := by
    rw [neg_sub_neg, abs_sub_comm]
  refine ⟨?_, ?_, ?_, rounds.least, ?_, ?_⟩
  · rw [rounds.same]
    push_cast
    ring
  · rw [distance]
    exact rounds.near
  · rw [distance]
    exact fun half => (rounds.even half).neg
  · rw [abs_neg]
    exact rounds.below
  · rw [abs_neg]
    exact rounds.full

theorem IsRounded.neg (rounded : IsRounded exact result) : IsRounded (-exact) (-result) :=
  let ⟨place, multiple, rounds⟩ := rounded
  ⟨place, -multiple, rounds.neg⟩

/-- A multiple of the power that is not above a number is not above what the number is rounded
to. -/
theorem Rounds.le_of_le (rounds : Rounds exact result place multiple) {bound : ℤ}
    (below : bound * (2 : ℚ) ^ place ≤ exact) : bound * (2 : ℚ) ^ place ≤ result := by
  have unit : (0 : ℚ) < 2 ^ place := by positivity
  have distance := le_abs_self (exact - result)
  have near := rounds.near
  have same := rounds.same
  have half : ((bound : ℚ) - multiple) * 2 ^ place < 1 * 2 ^ place := by linarith
  have last : bound < multiple + 1 := by
    have := lt_of_mul_lt_mul_right half unit.le
    have : (bound : ℚ) < multiple + 1 := by linarith
    exact_mod_cast this
  rw [same]
  refine mul_le_mul_of_nonneg_right ?_ unit.le
  exact_mod_cast Int.lt_add_one_iff.mp last

/-- A multiple of the power is rounded to itself. -/
theorem Rounds.eq_of_multiple (rounds : Rounds exact result place multiple) {whole : ℤ}
    (same : exact = whole * 2 ^ place) : result = exact := by
  refine le_antisymm ?_ ?_
  · have opposite : ((-whole : ℤ) : ℚ) * 2 ^ place ≤ -exact := by
      rw [same, Int.cast_neg, neg_mul]
    have least := rounds.neg.le_of_le opposite
    rw [Int.cast_neg, neg_mul, ← same] at least
    exact neg_le_neg_iff.mp least
  · rw [same]
    exact rounds.le_of_le same.ge

theorem Rounds.place_lt (rounds : Rounds exact result place multiple) {bound : ℤ}
    (small : |exact| < 2 ^ bound) : place = -1074 ∨ place + 52 < bound :=
  rounds.full.imp_right fun full => (zpow_lt_zpow_iff_right₀ one_lt_two).mp (full.trans_lt small)

theorem Rounds.lt_place (rounds : Rounds exact result place multiple) {bound : ℤ}
    (large : 2 ^ bound ≤ |exact|) : bound < place + 53 :=
  (zpow_lt_zpow_iff_right₀ one_lt_two).mp (large.trans_lt rounds.below)

/-- A number below `2 ^ 53` is rounded in units no larger than one. -/
theorem Rounds.place_nonpos (rounds : Rounds exact result place multiple)
    (small : |exact| < 2 ^ (53 : ℤ)) : place ≤ 0 := by
  have low := rounds.place_lt small
  omega

theorem intCast_two_pow {exponent : ℤ} (nonneg : 0 ≤ exponent) :
    ((2 ^ exponent.toNat : ℤ) : ℚ) = 2 ^ exponent := by
  rw [Int.cast_pow, Int.cast_ofNat, ← zpow_natCast, Int.toNat_of_nonneg nonneg]

theorem intCast_eq_multiple (whole : ℤ) (nonpos : place ≤ 0) :
    (whole : ℚ) = ((whole * 2 ^ (-place).toNat : ℤ) : ℚ) * 2 ^ place := by
  rw [Int.cast_mul, intCast_two_pow (by omega), mul_assoc, ← zpow_add₀ two_ne_zero,
    neg_add_cancel, zpow_zero, mul_one]

/-- Whole numbers below `2 ^ 53` are not changed by rounding. -/
theorem Rounds.eq_of_whole (rounds : Rounds exact result place multiple) {whole : ℤ}
    (same : exact = whole) (small : |exact| < 2 ^ 53) : result = exact :=
  rounds.eq_of_multiple (same.trans (intCast_eq_multiple whole (rounds.place_nonpos small)))

end Grid

section Results

variable {sign : Sign} {significand : ℕ} {exponent : ℤ} {value : Binary} {x y : Float}

def partsValue : UnpackedFloat → ℚ
  | .finite sign significand exponent _ => sign.apply significand * 2 ^ exponent
  | .zero _ | .infinity _ | .notANumber => 0

theorem Binary.signed_eq (value : Binary) : value.signed =
    (signOf value.negative).apply value.significand * 2 ^ value.exponent := by
  rw [signed, magnitude, signOf]
  split <;> simp [Sign.apply]

theorem valueOf_eq_partsValue (x : Float) : valueOf x = partsValue (Reading.of x).unpacked := by
  cases read : Reading.of x with
  | undefined | infinite =>
      rw [valueOf, read]
      rfl
  | finite value =>
      rw [valueOf, read, Reading.unpacked]
      dsimp only
      by_cases positive : 0 < value.significand
      · rw [dif_pos positive, partsValue, value.signed_eq]
      · have zero : value.significand = 0 := by omega
        rw [dif_neg positive, partsValue]
        simp [Binary.signed, Binary.magnitude, zero]

theorem Binary.Placed.valueOf_packed (placed : value.Placed) (positive : 0 < value.significand)
    (most : value.exponent ≤ 971) :
    valueOf (packed (.finite sign value.significand value.exponent positive)) =
      sign.apply value.significand * 2 ^ value.exponent := by
  rw [valueOf_eq_partsValue, placed.unpacked_packed, if_neg (not_lt.mpr most), partsValue]

theorem valueOf_packed_zero (sign : Sign) : valueOf (packed (.zero sign)) = 0 := by
  rw [valueOf_eq_partsValue, unpacked_packed]
  cases sign <;> rfl

/-- The exact significand and the rounded one, each with its own exponent. -/
theorem rounds_rounded (positive : 0 < significand)
    (coarse : exponent ≤ lastPlace significand exponent) :
    Rounds (significand * 2 ^ exponent)
      (rounded significand exponent * 2 ^ lastPlace significand exponent)
      (lastPlace significand exponent) (rounded significand exponent) := by
  obtain ⟨low, high⟩ := log2_bounds positive
  have unit : (0 : ℚ) < 2 ^ exponent := by positivity
  have nonneg : (0 : ℚ) ≤ significand * 2 ^ exponent := by positivity
  have count : ((lastPlace significand exponent - exponent).toNat : ℤ) + exponent =
      lastPlace significand exponent := by omega
  have dropped : (2 : ℚ) ^ (lastPlace significand exponent - exponent).toNat * 2 ^ exponent =
      2 ^ lastPlace significand exponent := by
    rw [← zpow_natCast, ← zpow_add₀ two_ne_zero, count]
  obtain ⟨multiple, whole, near, even⟩ := @roundedTo_roundHalfEven significand _
    (Nat.two_pow_pos (lastPlace significand exponent - exponent).toNat)
  rw [zpow_zero, mul_one] at whole
  rw [zpow_zero] at near even
  have same : (rounded significand exponent : ℤ) = multiple := by exact_mod_cast whole
  have step : (0 : ℚ) < 2 ^ lastPlace significand exponent := by positivity
  have units : (significand * 2 ^ exponent : ℚ) =
      significand / (2 ^ (lastPlace significand exponent - exponent).toNat : ℕ) *
        2 ^ lastPlace significand exponent := by
    rw [← dropped]
    push_cast
    rw [← mul_assoc, div_mul_cancel₀ _ (by positivity)]
  have distance : 2 * |(significand * 2 ^ exponent : ℚ) -
        rounded significand exponent * 2 ^ lastPlace significand exponent| =
      2 * |(significand / (2 ^ (lastPlace significand exponent - exponent).toNat : ℕ) : ℚ) -
        rounded significand exponent| * 2 ^ lastPlace significand exponent := by
    rw [units, ← sub_mul, abs_mul, abs_of_pos step, mul_assoc]
  refine ⟨by push_cast; rfl, ?_, ?_, least_le_lastPlace significand exponent, ?_, ?_⟩
  · rw [distance]
    exact mul_le_of_le_one_left step.le near
  · rw [distance, same]
    exact fun half => even ((mul_eq_right₀ step.ne').mp half)
  · rw [abs_of_nonneg nonneg]
    calc
      significand * (2 : ℚ) ^ exponent < 2 ^ (significand.log2 + 1 : ℤ) * 2 ^ exponent :=
        mul_lt_mul_of_pos_right high unit
      _ = 2 ^ (significand.log2 + 1 + exponent : ℤ) := (zpow_add₀ two_ne_zero _ _).symm
      _ ≤ 2 ^ (lastPlace significand exponent + 53) := by
        refine zpow_le_zpow_right₀ one_le_two ?_
        rw [lastPlace]
        omega
  · rw [abs_of_nonneg nonneg]
    by_cases least : lastPlace significand exponent = -1074
    · exact .inl least
    · refine .inr ?_
      have place : lastPlace significand exponent + 52 = significand.log2 + exponent := by
        rw [lastPlace] at least ⊢
        omega
      rw [place, zpow_add₀ two_ne_zero]
      exact mul_le_mul_of_nonneg_right low unit.le

theorem sign_apply_mul_congr (sign : Sign) {whole other : ℤ} {unit step : ℚ}
    (same : (whole : ℚ) * unit = other * step) :
    (sign.apply whole : ℚ) * unit = sign.apply other * step := by
  cases sign <;> simp [Sign.apply, same]

/-- What is rounded and stays finite stands for the rounded number. -/
theorem valueOf_roundWithAccuracy (positive : 0 < significand)
    (coarse : exponent ≤ lastPlace significand exponent)
    (finite : isFinite (packed
      (roundWithAccuracy Format.binary64 sign significand exponent .exact)) = true) :
    valueOf (packed (roundWithAccuracy Format.binary64 sign significand exponent .exact)) =
      sign.apply (rounded significand exponent) * 2 ^ lastPlace significand exponent := by
  obtain ⟨value, placed, magnitude, parts⟩ :=
    exists_placed_roundWithAccuracy sign positive coarse
  have same : ((value.significand : ℤ) : ℚ) * 2 ^ value.exponent =
      ((rounded significand exponent : ℤ) : ℚ) * 2 ^ lastPlace significand exponent := magnitude
  rw [parts] at finite ⊢
  rw [← sign_apply_mul_congr sign same]
  by_cases none : value.significand = 0
  · rw [dif_pos none, valueOf_packed_zero, none]
    cases sign <;> simp [Sign.apply]
  · rw [dif_neg none] at finite ⊢
    have most := (isFinite_packed_finite _ placed.least).mp finite
    exact placed.valueOf_packed (Nat.pos_of_ne_zero none) most

theorem isRounded_roundWithAccuracy (positive : 0 < significand)
    (coarse : exponent ≤ lastPlace significand exponent)
    (finite : isFinite (packed
      (roundWithAccuracy Format.binary64 sign significand exponent .exact)) = true) :
    IsRounded (sign.apply significand * 2 ^ exponent)
      (valueOf (packed
        (roundWithAccuracy Format.binary64 sign significand exponent .exact))) := by
  have rounds := rounds_rounded positive coarse
  rw [valueOf_roundWithAccuracy positive coarse finite]
  have whole : IsRounded _ _ := ⟨_, _, rounds⟩
  cases sign with
  | negative => simpa only [Sign.apply, Int.cast_neg, Int.cast_natCast, neg_mul] using whole.neg
  | positive => exact whole

theorem isRounded_round (positive : 0 < significand)
    (finite : isFinite (packed
      (UnpackedFloat.round Format.binary64 sign significand exponent)) = true) :
    IsRounded (sign.apply significand * 2 ^ exponent)
      (valueOf (packed (UnpackedFloat.round Format.binary64 sign significand exponent))) := by
  rw [UnpackedFloat.round, targetExponent_eq, decreaseExponent] at finite ⊢
  dsimp only at finite ⊢
  generalize shift : (exponent - lastPlace significand exponent).toNat = count at finite ⊢
  have bits := log2_shiftLeft positive count
  have more : 0 < significand <<< count := by
    rw [Nat.shiftLeft_eq]
    positivity
  have coarse : exponent - count ≤ lastPlace (significand <<< count) (exponent - count) := by
    rw [lastPlace] at shift ⊢
    omega
  have rounds := isRounded_roundWithAccuracy more coarse finite
  have moved : (((significand <<< count : ℕ) : ℤ) : ℚ) * 2 ^ (exponent - count) =
      ((significand : ℤ) : ℚ) * 2 ^ exponent := shiftLeft_mul significand count exponent
  rwa [sign_apply_mul_congr sign moved] at rounds

theorem isRounded_zero : IsRounded 0 0 := by
  refine ⟨-1074, 0, ?_, ?_, fun _ => Even.zero, le_rfl, ?_, .inl rfl⟩
  · simp
  · simp
  · rw [abs_zero]
    positivity

theorem isRounded_normalize {whole : ℤ}
    (finite : isFinite (packed
      (UnpackedFloat.normalize Format.binary64 whole exponent sign)) = true) :
    IsRounded (whole * 2 ^ exponent)
      (valueOf (packed (UnpackedFloat.normalize Format.binary64 whole exponent sign))) := by
  rw [UnpackedFloat.normalize] at finite ⊢
  rcases lt_trichotomy whole 0 with negative | rfl | positive
  · have size : -((-whole).toNat : ℤ) = whole := by omega
    rw [compare_lt_iff_lt.mpr negative] at finite ⊢
    have rounds := isRounded_round (by omega) finite
    rwa [Sign.apply, size] at rounds
  · rw [compare_eq_iff_eq.mpr rfl] at finite ⊢
    rw [Int.cast_zero, zero_mul]
    dsimp only
    rw [valueOf_packed_zero]
    exact isRounded_zero
  · have size : (whole.toNat : ℤ) = whole := by omega
    rw [compare_gt_iff_gt.mpr positive] at finite ⊢
    have rounds := isRounded_round (by omega) finite
    rwa [Sign.apply, size] at rounds

/-- A finite double has room for what it stands for. -/
theorem Binary.Canonical.rounds (canonical : value.Canonical) (positive : 0 < value.significand) :
    Rounds value.magnitude value.magnitude value.exponent value.significand := by
  have unit : (0 : ℚ) < 2 ^ value.exponent := by positivity
  have nonneg := (Binary.magnitude_pos.mpr positive).le
  have bits : (value.significand : ℚ) < 2 ^ (53 : ℤ) := by exact_mod_cast canonical.significand
  refine ⟨by rw [Binary.magnitude, Int.cast_natCast], ?_, ?_, canonical.least, ?_, ?_⟩
  · simp only [sub_self, abs_zero, mul_zero]
    exact unit.le
  · simp only [sub_self, abs_zero, mul_zero]
    exact fun half => (unit.ne half).elim
  · rw [abs_of_nonneg nonneg, Binary.magnitude, add_comm, zpow_add₀ two_ne_zero]
    exact mul_lt_mul_of_pos_right bits unit
  · refine canonical.full.imp_right fun full => ?_
    have all : (2 : ℚ) ^ (52 : ℤ) ≤ value.significand := by exact_mod_cast full
    rw [abs_of_nonneg nonneg, Binary.magnitude, add_comm, zpow_add₀ two_ne_zero]
    exact mul_le_mul_of_nonneg_right all unit.le

theorem isRounded_valueOf (finite : isFinite x = true) : IsRounded (valueOf x) (valueOf x) := by
  cases Parts.of_isFinite finite with
  | zero sign parts stands =>
      rw [stands]
      exact isRounded_zero
  | nonzero value canonical positive parts stands =>
      have rounds := canonical.rounds positive
      rw [stands, Binary.signed]
      have double : IsRounded _ _ := ⟨_, _, rounds⟩
      split
      · exact double.neg
      · exact double

/-- Parts that are packed without loss: those that doubles are taken apart into. -/
def Packable : UnpackedFloat → Prop
  | .finite _ significand exponent _ => Binary.Canonical ⟨false, significand, exponent⟩
  | .zero _ | .infinity _ | .notANumber => True

theorem Packable.unpacked_packed {parts : UnpackedFloat} (packable : Packable parts) :
    (Reading.of (packed parts)).unpacked = parts := by
  cases parts with
  | notANumber =>
      rw [Number.unpacked_packed]
      rfl
  | infinity sign | zero sign =>
      rw [Number.unpacked_packed]
      cases sign <;> rfl
  | finite sign significand exponent positive =>
      have canonical : Binary.Canonical ⟨false, significand, exponent⟩ := packable
      rw [canonical.placed.unpacked_packed positive, if_neg (not_lt.mpr canonical.most)]

theorem packable_unpacked (x : Float) : Packable (Reading.of x).unpacked := by
  cases read : Reading.of x with
  | undefined | infinite negative => trivial
  | finite value =>
      obtain ⟨canonical, -⟩ := Reading.ofMagnitude_of_finite read
      rw [Reading.unpacked]
      split
      · exact ⟨canonical.significand, canonical.least, canonical.most, canonical.full⟩
      · trivial

theorem Packable.neg {parts : UnpackedFloat} (packable : Packable parts) : Packable parts.neg := by
  cases parts with
  | finite sign significand exponent positive => exact packable
  | _ => trivial

theorem valueOf_packed_unpacked (x : Float) :
    valueOf (packed (Reading.of x).unpacked) = valueOf x := by
  rw [valueOf_eq_partsValue, (packable_unpacked x).unpacked_packed, ← valueOf_eq_partsValue]

/-- Numbers that are far from the largest double. -/
theorem InRange.of_small {quotient : ℚ} (small : |quotient| < 2 ^ 64) : InRange quotient := by
  have unit : (2 : ℚ) ^ (12 : ℤ) ≤ 2 ^ (971 : ℤ) := zpow_le_zpow_right₀ one_le_two (by decide)
  refine small.trans_le (le_trans ?_ (mul_le_mul_of_nonneg_left unit (by norm_num)))
  norm_num

/-- A sum of finite doubles is the exact one, rounded. -/
theorem isRounded_add (left : isFinite x = true) (right : isFinite y = true)
    (range : InRange (valueOf x + valueOf y)) :
    IsRounded (valueOf x + valueOf y) (valueOf (x + y)) := by
  have finite := (isFinite_add left right).mpr range
  rw [add_eq] at finite ⊢
  cases Parts.of_isFinite left with
  | zero sign parts stands =>
      cases Parts.of_isFinite right with
      | zero other parts' stands' =>
          rw [stands, stands', parts, parts', UnpackedFloat.add, zero_add, apply_ite packed,
            apply_ite valueOf, valueOf_packed_zero, valueOf_packed_zero, ite_self]
          exact isRounded_zero
      | nonzero second canonical positive parts' stands' =>
          have same : UnpackedFloat.add Format.binary64 (Reading.of x).unpacked
              (Reading.of y).unpacked = (Reading.of y).unpacked := by
            rw [parts, parts']
            rfl
          rw [same, stands, zero_add, valueOf_packed_unpacked]
          exact isRounded_valueOf right
  | nonzero first canonical positive parts stands =>
      cases Parts.of_isFinite right with
      | zero other parts' stands' =>
          have same : UnpackedFloat.add Format.binary64 (Reading.of x).unpacked
              (Reading.of y).unpacked = (Reading.of x).unpacked := by
            rw [parts, parts']
            rfl
          rw [same, stands', add_zero, valueOf_packed_unpacked]
          exact isRounded_valueOf left
      | nonzero second canonicalSecond more parts' stands' =>
          rw [parts, parts', UnpackedFloat.add] at finite ⊢
          dsimp only at finite ⊢
          have rounds := isRounded_normalize finite
          rwa [Int.cast_add, add_mul, first.aligned (min_le_left _ _),
            second.aligned (min_le_right _ _), ← stands, ← stands'] at rounds

theorem sign_apply_mul (sign other : Sign) (whole whole' : ℤ) :
    (sign * other).apply (whole * whole') = sign.apply whole * other.apply whole' := by
  cases sign with
  | negative =>
      cases other with
      | negative => exact (neg_mul_neg whole whole').symm
      | positive => exact (neg_mul whole whole').symm
  | positive =>
      cases other with
      | negative => exact (mul_neg whole whole').symm
      | positive => rfl

theorem Binary.signed_mul (first second : Binary) : first.signed * second.signed =
    ((signOf first.negative * signOf second.negative).apply
        (first.significand * second.significand : ℕ) : ℚ) *
      2 ^ (first.exponent + second.exponent) := by
  rw [first.signed_eq, second.signed_eq, Nat.cast_mul, sign_apply_mul, zpow_add₀ two_ne_zero]
  push_cast
  ring

/-- A product of finite doubles is the exact one, rounded. -/
theorem isRounded_mul (left : isFinite x = true) (right : isFinite y = true)
    (range : InRange (valueOf x * valueOf y)) :
    IsRounded (valueOf x * valueOf y) (valueOf (x * y)) := by
  have finite := (isFinite_mul left right).mpr range
  rw [mul_eq] at finite ⊢
  cases Parts.of_isFinite left with
  | zero sign parts stands =>
      rw [stands, zero_mul, parts]
      cases Parts.of_isFinite right with
      | zero other parts' stands' =>
          rw [parts', UnpackedFloat.mul, valueOf_packed_zero]
          exact isRounded_zero
      | nonzero second canonical positive parts' stands' =>
          rw [parts', UnpackedFloat.mul, valueOf_packed_zero]
          exact isRounded_zero
  | nonzero first canonical positive parts stands =>
      cases Parts.of_isFinite right with
      | zero other parts' stands' =>
          rw [stands', mul_zero, parts, parts', UnpackedFloat.mul, valueOf_packed_zero]
          exact isRounded_zero
      | nonzero second canonicalSecond more parts' stands' =>
          rw [parts, parts', UnpackedFloat.mul] at finite ⊢
          have coarse := canonical.le_lastPlace_mul canonicalSecond positive more
          have rounds := isRounded_roundWithAccuracy (Nat.mul_pos positive more) coarse finite
          rwa [stands, stands', Binary.signed_mul]

theorem sign_apply_neg (sign : Sign) (whole : ℤ) : (-sign).apply whole = -sign.apply whole := by
  cases sign with
  | negative => exact (neg_neg whole).symm
  | positive => rfl

theorem sub_eq_add_neg_parts (first second : UnpackedFloat) :
    UnpackedFloat.sub Format.binary64 first second =
      UnpackedFloat.add Format.binary64 first second.neg := by
  cases first with
  | finite sign significand exponent positive =>
      cases second with
      | finite other significand' exponent' positive' =>
          rw [UnpackedFloat.neg, UnpackedFloat.sub, UnpackedFloat.add]
          simp only [sign_apply_neg, sub_eq_add_neg]
      | _ => rfl
  | _ => cases second <;> rfl

/-- A difference is the sum with the negated double. -/
theorem float_sub_eq_add_neg (x y : Float) : x - y = x + -y := by
  rw [sub_eq, add_eq, neg_eq, (packable_unpacked y).neg.unpacked_packed, sub_eq_add_neg_parts]

theorem valueOf_neg (x : Float) : valueOf (-x) = -valueOf x := by
  rw [neg_eq, valueOf_eq_partsValue, valueOf_eq_partsValue x,
    (packable_unpacked x).neg.unpacked_packed]
  cases (Reading.of x).unpacked with
  | finite sign significand exponent positive =>
      rw [UnpackedFloat.neg, partsValue, partsValue, sign_apply_neg, Int.cast_neg, neg_mul]
  | _ => exact neg_zero.symm

end Results

/-- A finite double and the number that it stands for. -/
structure Stands (x : Float) (exact : ℚ) : Prop where
  finite : isFinite x = true
  same : valueOf x = exact

/-- Rounding does not change a number. -/
def Kept (exact : ℚ) : Prop :=
  ∀ result, IsRounded exact result → result = exact

section Kept

variable {x y : Float} {a b exact result : ℚ} {place multiple place' multiple' : ℤ}

/-- The place that a number is rounded at is the last one of what it is rounded to. -/
theorem Rounds.place_le (rounds : Rounds exact result place multiple)
    (rounds' : Rounds exact exact place' multiple') : place ≤ place' := by
  rcases rounds.full with least | full
  · rw [least]
    exact rounds'.least
  · have high := rounds'.lt_place full
    omega

theorem Kept.of_isRounded (double : IsRounded exact exact) : Kept exact := by
  rintro result ⟨place, multiple, rounds⟩
  obtain ⟨place', multiple', rounds'⟩ := double
  have finer := rounds.place_le rounds'
  have whole : exact = ((multiple' * 2 ^ (place' - place).toNat : ℤ) : ℚ) * 2 ^ place := by
    rw [Int.cast_mul, intCast_two_pow (by omega), mul_assoc, ← zpow_add₀ two_ne_zero,
      sub_add_cancel]
    exact rounds'.same
  exact rounds.eq_of_multiple whole

theorem kept_intCast {whole : ℤ} (small : |whole| < 2 ^ 53) : Kept whole := by
  rintro result ⟨place, multiple, rounds⟩
  refine rounds.eq_of_whole rfl ?_
  rw [← Int.cast_abs]
  exact_mod_cast small

theorem inRange_intCast {whole : ℤ} (small : |whole| < 2 ^ 53) : InRange whole := by
  have bound : |whole| < 2 ^ 64 := small.trans (by norm_num)
  refine .of_small ?_
  rw [← Int.cast_abs]
  exact_mod_cast bound

theorem Stands.kept (stands : Stands x exact) : Kept exact :=
  .of_isRounded (stands.same ▸ isRounded_valueOf stands.finite)

theorem Stands.inRange (stands : Stands x exact) : InRange exact :=
  stands.same ▸ inRange_valueOf stands.finite

theorem Stands.unique (stands : Stands x a) (other : Stands x b) : a = b :=
  stands.same.symm.trans other.same

theorem stands_zero : Stands 0 0 :=
  ⟨isFinite_zero, valueOf_zero⟩

theorem stands_one : Stands 1 1 :=
  ⟨isFinite_one, by decide +kernel⟩

theorem Stands.of_beq (right : Stands y exact) (equal : (x == y) = true) : Stands x exact := by
  have finite := isFinite_of_beq right.finite equal
  exact ⟨finite, ((beq_iff_valueOf finite right.finite).mp equal).trans right.same⟩

theorem Stands.of_isRounded {total : ℚ} (finite : isFinite x = true ↔ InRange total)
    (rounded : InRange total → IsRounded total (valueOf x)) (same : total = exact)
    (range : InRange exact) (kept : Kept exact) : Stands x exact := by
  subst same
  exact ⟨finite.mpr range, kept _ (rounded range)⟩

theorem Stands.add (left : Stands x a) (right : Stands y b) (sum : a + b = exact)
    (range : InRange exact) (kept : Kept exact) : Stands (x + y) exact := by
  rw [← left.same, ← right.same] at sum
  have finite := isFinite_add left.finite right.finite
  exact .of_isRounded finite (isRounded_add left.finite right.finite) sum range kept

theorem Stands.mul (left : Stands x a) (right : Stands y b) (product : a * b = exact)
    (range : InRange exact) (kept : Kept exact) : Stands (x * y) exact := by
  rw [← left.same, ← right.same] at product
  have finite := isFinite_mul left.finite right.finite
  exact .of_isRounded finite (isRounded_mul left.finite right.finite) product range kept

theorem Stands.sub (left : Stands x a) (right : Stands y b) (difference : a - b = exact)
    (range : InRange exact) (kept : Kept exact) : Stands (x - y) exact := by
  have opposite : Stands (-y) (-b) := ⟨isFinite_neg right.finite, by rw [valueOf_neg, right.same]⟩
  rw [float_sub_eq_add_neg]
  exact left.add opposite (by rw [← difference, sub_eq_add_neg]) range kept

/-- In a row of the identity only one of two products is not zero. -/
theorem Stands.row {x' y' : Float} (zero : Stands x 0) (other : Stands x' a) (one : Stands y 1)
    (number : Stands y' b) : Stands (x * x' + y * y') b ∧ Stands (y * y' + x * x') b := by
  have nothing := zero.mul other (zero_mul a) inRange_zero stands_zero.kept
  have all := one.mul number (one_mul b) number.inRange number.kept
  exact ⟨nothing.add all (zero_add b) number.inRange number.kept,
    all.add nothing (add_zero b) number.inRange number.kept⟩

end Kept

end Quill.Number
