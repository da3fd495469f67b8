import Quill.Proofs.Rounding

/-!
# The range of doubles

A product and a sum of two doubles are the exact ones, rounded.  They are finite unless the exact
ones are so large that rounding leads beyond the largest double: from half way between it and the
power of two behind it on.  What is infinite or undefined never gets finite again in a sum.
-/

namespace Quill.Number

open Float.Model Float.Model.UnpackedFloat

/-- Numbers that are not rounded beyond the largest double, `(2 ^ 53 - 1) * 2 ^ 971`. -/
def InRange (quotient : ℚ) : Prop :=
  |quotient| < (2 ^ 53 - 1 / 2) * 2 ^ (971 : ℤ)

instance (quotient : ℚ) : Decidable (InRange quotient) :=
  inferInstanceAs (Decidable (_ < _))

def Binary.signed (value : Binary) : ℚ :=
  if value.negative then -value.magnitude else value.magnitude

/-- The number that a finite double stands for; no other double stands for one. -/
def valueOf (x : Float) : ℚ :=
  match Reading.of x with
  | .finite value => value.signed
  | .undefined | .infinite _ => 0

/-- Two products of doubles and their sum do not overflow. -/
structure DotInRange (a b c d : Float) : Prop where
  first : InRange (valueOf a * valueOf b)
  second : InRange (valueOf c * valueOf d)
  sum : InRange (valueOf (a * b) + valueOf (c * d))

instance (a b c d : Float) : Decidable (DotInRange a b c d) :=
  decidable_of_iff (InRange (valueOf a * valueOf b) ∧ InRange (valueOf c * valueOf d) ∧
      InRange (valueOf (a * b) + valueOf (c * d)))
    ⟨fun ⟨first, second, sum⟩ => ⟨first, second, sum⟩,
      fun ⟨first, second, sum⟩ => ⟨first, second, sum⟩⟩

section Range

variable {sign : Sign} {significand : ℕ} {exponent : ℤ} {value : Binary} {quotient : ℚ}

theorem inRange_zero : InRange 0 := by
  rw [InRange, abs_zero]
  exact mul_pos (by norm_num) (by positivity)

theorem InRange.neg_iff : InRange (-quotient) ↔ InRange quotient := by
  rw [InRange, abs_neg, InRange]

theorem Binary.abs_signed (value : Binary) : |value.signed| = value.magnitude := by
  have nonneg : 0 ≤ value.magnitude := by
    rw [magnitude]
    positivity
  rw [signed]
  split
  · rw [abs_neg, abs_of_nonneg nonneg]
  · rw [abs_of_nonneg nonneg]

theorem Binary.Canonical.inRange (canonical : value.Canonical) : InRange value.signed := by
  have below : (value.significand : ℚ) < 2 ^ 53 - 1 / 2 := by
    have most : (value.significand + 1 : ℚ) ≤ 2 ^ 53 := by exact_mod_cast canonical.significand
    linarith
  rw [InRange, Binary.abs_signed, Binary.magnitude]
  calc
    value.significand * (2 : ℚ) ^ value.exponent < (2 ^ 53 - 1 / 2) * 2 ^ value.exponent :=
      mul_lt_mul_of_pos_right below (by positivity)
    _ ≤ (2 ^ 53 - 1 / 2) * 2 ^ (971 : ℤ) :=
      mul_le_mul_of_nonneg_left (zpow_le_zpow_right₀ one_le_two canonical.most) (by norm_num)

/-- Below an even number everything rounds that is nearer to the number before it. -/
theorem roundHalfEven_lt_iff {numerator denominator bound : ℕ} (positive : 0 < denominator)
    (even : bound % 2 = 0) :
    roundHalfEven numerator denominator < bound ↔
      2 * numerator + denominator < 2 * (denominator * bound) := by
  have whole := Nat.div_add_mod numerator denominator
  have rest := Nat.mod_lt numerator positive
  simp only [roundHalfEven]
  rcases lt_trichotomy (numerator / denominator + 1) bound with below | last | above
  · have product := Nat.mul_le_mul_left denominator below
    rw [Nat.mul_succ, Nat.mul_succ] at product
    split
    · omega
    · split <;> omega
  · have product := congrArg (denominator * ·) last
    rw [Nat.mul_succ] at product
    split
    · omega
    · split <;> omega
  · have product := Nat.mul_le_mul_left denominator (Nat.le_of_lt_succ above)
    split
    · omega
    · split <;> omega

/-- With the largest exponent a number carries from the end of the range on. -/
theorem rounded_lt_iff (top : lastPlace significand exponent = 971) (coarse : exponent ≤ 971) :
    rounded significand exponent < 2 ^ 53 ↔ InRange (significand * 2 ^ exponent) := by
  have unit : (0 : ℚ) < 2 ^ exponent := by positivity
  have nonneg : (0 : ℚ) ≤ significand * 2 ^ exponent := by positivity
  have place : ((971 - exponent).toNat : ℤ) + exponent = 971 := by omega
  have units : (2 : ℚ) ^ (971 - exponent).toNat * 2 ^ exponent = 2 ^ (971 : ℤ) := by
    rw [← zpow_natCast, ← zpow_add₀ two_ne_zero, place]
  rw [rounded, top, roundHalfEven_lt_iff (Nat.two_pow_pos _) (by decide), InRange,
    abs_of_nonneg nonneg, ← @Nat.cast_lt ℚ, ← mul_lt_mul_iff_left₀ unit]
  generalize (2 : ℚ) ^ (971 : ℤ) = last at *
  push_cast
  constructor
  · intro below
    linarith
  · intro below
    linarith

/-- What is rounded is finite just if it is in range.  Only with the largest exponent it matters how
the significand is rounded. -/
theorem isFinite_roundWithAccuracy (positive : 0 < significand)
    (coarse : exponent ≤ lastPlace significand exponent) :
    isFinite (packed (roundWithAccuracy Format.binary64 sign significand exponent .exact)) =
        true ↔ InRange (significand * 2 ^ exponent) := by
  obtain ⟨low, high⟩ := log2_bounds positive
  have unit : (0 : ℚ) < 2 ^ exponent := by positivity
  rw [isFinite_rounded_iff coarse]
  rcases lt_trichotomy (lastPlace significand exponent) 971 with below | top | above
  · refine iff_of_true (.inr (.inl (by omega))) ?_
    rw [InRange, abs_of_nonneg (by positivity)]
    calc
      significand * (2 : ℚ) ^ exponent < 2 ^ (significand.log2 + 1 : ℤ) * 2 ^ exponent :=
        mul_lt_mul_of_pos_right high unit
      _ = 2 ^ (significand.log2 + 1 + exponent : ℤ) := (zpow_add₀ two_ne_zero _ _).symm
      _ ≤ 2 ^ (1023 : ℤ) := by
        refine zpow_le_zpow_right₀ one_le_two ?_
        rw [lastPlace] at below
        omega
      _ = 2 ^ 52 * 2 ^ (971 : ℤ) := by
        rw [← zpow_natCast, ← zpow_add₀ two_ne_zero]
        rfl
      _ ≤ (2 ^ 53 - 1 / 2) * 2 ^ (971 : ℤ) :=
        mul_le_mul_of_nonneg_right (by norm_num) (by positivity)
  · have full := le_rounded positive (by omega) coarse
    rw [top] at coarse
    rw [← rounded_lt_iff top coarse]
    omega
  · have full := le_rounded positive (by omega) coarse
    refine iff_of_false (by omega) ?_
    rw [InRange, abs_of_nonneg (by positivity), not_lt]
    calc
      ((2 ^ 53 - 1 / 2) * 2 ^ (971 : ℤ) : ℚ) ≤ 2 ^ 53 * 2 ^ (971 : ℤ) :=
        mul_le_mul_of_nonneg_right (by norm_num) (by positivity)
      _ = 2 ^ (1024 : ℤ) := by
        rw [← zpow_natCast, ← zpow_add₀ two_ne_zero]
        rfl
      _ ≤ 2 ^ (significand.log2 + exponent : ℤ) := by
        refine zpow_le_zpow_right₀ one_le_two ?_
        rw [lastPlace] at above
        omega
      _ = 2 ^ (significand.log2 : ℤ) * 2 ^ exponent := zpow_add₀ two_ne_zero _ _
      _ ≤ significand * 2 ^ exponent := mul_le_mul_of_nonneg_right low unit.le

theorem log2_shiftLeft (positive : 0 < significand) (count : ℕ) :
    (significand <<< count).log2 = significand.log2 + count := by
  rw [Nat.shiftLeft_eq, Nat.log2_eq_iff (by positivity), add_right_comm, pow_add, pow_add _ _ count]
  exact ⟨Nat.mul_le_mul_right _ (Nat.log2_self_le positive.ne'),
    Nat.mul_lt_mul_of_pos_right Nat.lt_log2_self (Nat.two_pow_pos count)⟩

/-- Zeros behind a significand change the last place, not the number. -/
theorem shiftLeft_mul (significand count : ℕ) (exponent : ℤ) :
    ((significand <<< count : ℕ) : ℚ) * 2 ^ (exponent - count) = significand * 2 ^ exponent := by
  rw [Nat.shiftLeft_eq, Nat.cast_mul, Nat.cast_pow, Nat.cast_ofNat, ← zpow_natCast, mul_assoc,
    ← zpow_add₀ two_ne_zero, add_sub_cancel]

theorem isFinite_round (positive : 0 < significand) :
    isFinite (packed (UnpackedFloat.round Format.binary64 sign significand exponent)) = true ↔
      InRange (significand * 2 ^ exponent) := by
  rw [UnpackedFloat.round, targetExponent_eq, decreaseExponent]
  dsimp only
  generalize shift : (exponent - lastPlace significand exponent).toNat = count
  have bits := log2_shiftLeft positive count
  have more : 0 < significand <<< count := by
    rw [Nat.shiftLeft_eq]
    positivity
  rw [isFinite_roundWithAccuracy more, shiftLeft_mul]
  rw [lastPlace] at shift ⊢
  omega

theorem isFinite_normalize (whole : ℤ) :
    isFinite (packed (UnpackedFloat.normalize Format.binary64 whole exponent sign)) = true ↔
      InRange (whole * 2 ^ exponent) := by
  rw [UnpackedFloat.normalize]
  rcases lt_trichotomy whole 0 with negative | rfl | positive
  · have size : ((-whole).toNat : ℚ) = -whole := by
      exact_mod_cast Int.toNat_of_nonneg (by omega)
    rw [compare_lt_iff_lt.mpr negative]
    dsimp only
    rw [isFinite_round (by omega), size, neg_mul, InRange.neg_iff]
  · rw [compare_eq_iff_eq.mpr rfl, Int.cast_zero, zero_mul]
    exact iff_of_true (isFinite_packed_zero sign) inRange_zero
  · have size : (whole.toNat : ℚ) = whole := by
      exact_mod_cast Int.toNat_of_nonneg positive.le
    rw [compare_gt_iff_gt.mpr positive]
    dsimp only
    rw [isFinite_round (by omega), size]

end Range

section Arithmetic

variable {x y : Float} {value : Binary}

theorem exists_of_isFinite (finite : isFinite x = true) :
    ∃ value, Reading.of x = .finite value ∧ value.Canonical ∧ valueOf x = value.signed := by
  rw [isFinite] at finite
  split at finite
  · rename_i value read
    refine ⟨value, read, (Reading.ofMagnitude_of_finite read).1, ?_⟩
    rw [valueOf, read]
  all_goals cases finite

theorem inRange_valueOf (finite : isFinite x = true) : InRange (valueOf x) := by
  obtain ⟨value, -, canonical, stands⟩ := exists_of_isFinite finite
  rw [stands]
  exact canonical.inRange

/-- What a finite double is taken apart into. -/
inductive Parts (x : Float) : Prop
  | zero (sign : Sign) (parts : (Reading.of x).unpacked = .zero sign) (stands : valueOf x = 0)
  | nonzero (value : Binary) (canonical : value.Canonical) (positive : 0 < value.significand)
      (parts : (Reading.of x).unpacked =
        .finite (signOf value.negative) value.significand value.exponent positive)
      (stands : valueOf x = value.signed)

theorem Parts.of_isFinite (finite : isFinite x = true) : Parts x := by
  obtain ⟨value, read, canonical, stands⟩ := exists_of_isFinite finite
  rcases Nat.eq_zero_or_pos value.significand with none | positive
  · refine .zero (signOf value.negative) ?_ ?_
    · rw [read]
      exact dif_neg (by omega)
    · rw [stands]
      simp [Binary.signed, Binary.magnitude, none]
  · refine .nonzero value canonical positive ?_ stands
    rw [read]
    exact dif_pos positive

/-- A significand that is brought to a lower last place stands for the same number. -/
theorem Binary.aligned (value : Binary) {last : ℤ} (lower : last ≤ value.exponent) :
    ((signOf value.negative).apply
        (decreaseExponent value.significand value.exponent last).1 : ℚ) * 2 ^ last =
      value.signed := by
  have place : value.exponent - ((value.exponent - last).toNat : ℤ) = last := by omega
  have moved : ((decreaseExponent value.significand value.exponent last).1 : ℚ) * 2 ^ last =
      value.magnitude := by
    have shifted := shiftLeft_mul value.significand (value.exponent - last).toNat value.exponent
    rwa [place] at shifted
  rw [signed, ← moved, signOf]
  split <;> simp [Sign.apply]

theorem mul_eq (x y : Float) : x * y =
    packed (UnpackedFloat.mul Format.binary64 (Reading.of x).unpacked (Reading.of y).unpacked) := by
  rw [← unpack_toModel, ← unpack_toModel]
  rfl

theorem add_eq (x y : Float) : x + y =
    packed (UnpackedFloat.add Format.binary64 (Reading.of x).unpacked (Reading.of y).unpacked) := by
  rw [← unpack_toModel, ← unpack_toModel]
  rfl

theorem sub_eq (x y : Float) : x - y =
    packed (UnpackedFloat.sub Format.binary64 (Reading.of x).unpacked (Reading.of y).unpacked) := by
  rw [← unpack_toModel, ← unpack_toModel]
  rfl

theorem neg_eq (x : Float) : -x = packed (UnpackedFloat.neg (Reading.of x).unpacked) := by
  rw [← unpack_toModel]
  rfl

/-- A product has bits to drop, because a factor has all of its own unless both are tiny. -/
theorem Binary.Canonical.le_lastPlace_mul {first second : Binary} (one : first.Canonical)
    (other : second.Canonical) (some : 0 < first.significand) (more : 0 < second.significand) :
    first.exponent + second.exponent ≤
      lastPlace (first.significand * second.significand) (first.exponent + second.exponent) := by
  have nonzero : first.significand * second.significand ≠ 0 := (Nat.mul_pos some more).ne'
  rw [lastPlace]
  rcases one.full with least | full
  · rcases other.full with low | full
    · omega
    · have bits : 52 ≤ (first.significand * second.significand).log2 :=
        (Nat.le_log2 nonzero).mpr (full.trans (Nat.le_mul_of_pos_left _ some))
      omega
  · have bits : 52 ≤ (first.significand * second.significand).log2 :=
      (Nat.le_log2 nonzero).mpr (full.trans (Nat.le_mul_of_pos_right _ more))
    omega

theorem Binary.abs_signed_mul (first second : Binary) : |first.signed * second.signed| =
    (first.significand * second.significand : ℕ) * 2 ^ (first.exponent + second.exponent) := by
  rw [abs_mul, abs_signed, abs_signed, magnitude, magnitude, zpow_add₀ two_ne_zero]
  push_cast
  ring

/-- A product of finite doubles is finite just if the exact one is in range. -/
theorem isFinite_mul (left : isFinite x = true) (right : isFinite y = true) :
    isFinite (x * y) = true ↔ InRange (valueOf x * valueOf y) := by
  rw [mul_eq]
  cases Parts.of_isFinite left with
  | zero sign parts stands =>
      rw [parts, stands, zero_mul]
      refine iff_of_true ?_ inRange_zero
      cases Parts.of_isFinite right with
      | zero other parts stands =>
          rw [parts]
          exact isFinite_packed_zero _
      | nonzero second canonical positive parts stands =>
          rw [parts]
          exact isFinite_packed_zero _
  | nonzero first canonical positive parts stands =>
      rw [parts, stands]
      cases Parts.of_isFinite right with
      | zero other parts stands =>
          rw [parts, stands, mul_zero]
          exact iff_of_true (isFinite_packed_zero _) inRange_zero
      | nonzero second canonicalSecond more parts stands =>
          rw [parts, stands, UnpackedFloat.mul,
            isFinite_roundWithAccuracy (Nat.mul_pos positive more)
              (canonical.le_lastPlace_mul canonicalSecond positive more),
            ← first.abs_signed_mul, InRange, InRange, abs_abs]

/-- A sum of finite doubles is finite just if the exact one is in range. -/
theorem isFinite_add (left : isFinite x = true) (right : isFinite y = true) :
    isFinite (x + y) = true ↔ InRange (valueOf x + valueOf y) := by
  rw [add_eq]
  cases Parts.of_isFinite left with
  | zero sign parts stands =>
      rw [parts, stands, zero_add]
      refine iff_of_true ?_ (inRange_valueOf right)
      cases Parts.of_isFinite right with
      | zero other parts stands =>
          rw [parts, UnpackedFloat.add]
          split <;> exact isFinite_packed_zero _
      | nonzero second canonical positive parts stands =>
          rw [parts]
          exact canonical.isFinite_packed positive
  | nonzero first canonical positive parts stands =>
      rw [parts]
      cases Parts.of_isFinite right with
      | zero other parts zero =>
          rw [parts, zero, add_zero]
          exact iff_of_true (canonical.isFinite_packed positive) (inRange_valueOf left)
      | nonzero second canonicalSecond more parts other =>
          rw [parts, stands, other, UnpackedFloat.add]
          dsimp only
          rw [isFinite_normalize, Int.cast_add, add_mul, first.aligned (min_le_left _ _),
            second.aligned (min_le_right _ _)]

theorem isFinite_unpacked (x : Float) : isFinite x = (Reading.of x).unpacked.isFinite := by
  rw [isFinite]
  cases Reading.of x with
  | undefined | infinite => rfl
  | finite value =>
      unfold Reading.unpacked
      dsimp only
      by_cases positive : 0 < value.significand
      · rw [dif_pos positive]
        rfl
      · rw [dif_neg positive]
        rfl

theorem isFinite_of_packed_add {first second : UnpackedFloat}
    (finite : isFinite (packed (UnpackedFloat.add Format.binary64 first second)) = true) :
    first.isFinite = true ∧ second.isFinite = true := by
  have undefined := not_isFinite_packed_notANumber
  have infinite := not_isFinite_packed_infinity
  cases first with
  | notANumber => exact (undefined finite).elim
  | infinity sign =>
      cases second with
      | notANumber => exact (undefined finite).elim
      | infinity other =>
          rw [UnpackedFloat.add] at finite
          split at finite
          · exact (infinite sign finite).elim
          · exact (undefined finite).elim
      | zero | finite => exact (infinite sign finite).elim
  | zero | finite =>
      cases second with
      | notANumber => exact (undefined finite).elim
      | infinity sign => exact (infinite sign finite).elim
      | zero | finite => exact ⟨rfl, rfl⟩

/-- What is infinite or undefined stays so in a sum. -/
theorem isFinite_of_add (finite : isFinite (x + y) = true) :
    isFinite x = true ∧ isFinite y = true := by
  rw [add_eq] at finite
  rw [isFinite_unpacked x, isFinite_unpacked y]
  exact isFinite_of_packed_add finite

theorem isFinite_neg (finite : isFinite x = true) : isFinite (-x) = true := by
  rw [neg_eq]
  cases Parts.of_isFinite finite with
  | zero sign parts stands =>
      rw [parts]
      exact isFinite_packed_zero _
  | nonzero value canonical positive parts stands =>
      rw [parts]
      exact canonical.isFinite_packed positive

theorem isFinite_zero : isFinite 0 = true := by
  decide +kernel

theorem isFinite_one : isFinite 1 = true := by
  decide +kernel

end Arithmetic

section Dots

variable {a b c d x : Float}

theorem isFinite_dot (finiteA : isFinite a = true) (finiteB : isFinite b = true)
    (finiteC : isFinite c = true) (finiteD : isFinite d = true) :
    isFinite (a * b + c * d) = true ↔ DotInRange a b c d := by
  constructor
  · intro finite
    obtain ⟨first, second⟩ := isFinite_of_add finite
    exact ⟨(isFinite_mul finiteA finiteB).mp first, (isFinite_mul finiteC finiteD).mp second,
      (isFinite_add first second).mp finite⟩
  · rintro ⟨first, second, sum⟩
    exact (isFinite_add ((isFinite_mul finiteA finiteB).mpr first)
      ((isFinite_mul finiteC finiteD).mpr second)).mpr sum

theorem isFinite_moved (finiteA : isFinite a = true) (finiteB : isFinite b = true)
    (finiteC : isFinite c = true) (finiteD : isFinite d = true) (finiteX : isFinite x = true) :
    isFinite (a * b + c * d + x) = true ↔
      DotInRange a b c d ∧ InRange (valueOf (a * b + c * d) + valueOf x) := by
  rw [← isFinite_dot finiteA finiteB finiteC finiteD]
  constructor
  · intro finite
    obtain ⟨dot, -⟩ := isFinite_of_add finite
    exact ⟨dot, (isFinite_add dot finiteX).mp finite⟩
  · rintro ⟨dot, sum⟩
    exact (isFinite_add dot finiteX).mpr sum

end Dots

section Remainders

theorem nearestBits_lt {numerator denominator : ℕ} (denominatorPos : 0 < denominator)
    (below : (numerator / denominator : ℚ) < 2 ^ (1023 : ℤ)) :
    nearestBits numerator denominator < infinityBits := by
  rw [nearestBits]
  split
  · decide
  rename_i nonzero
  obtain ⟨low, high⟩ := floorLog2_bounds (Nat.pos_of_ne_zero nonzero) denominatorPos
  have small : floorLog2 numerator denominator < 1023 :=
    (zpow_lt_zpow_iff_right₀ one_lt_two).mp (lt_of_le_of_lt low below)
  dsimp only
  generalize place : max (-1074) (floorLog2 numerator denominator - 52) = exponent
  have scaled : (numerator * 2 ^ (-exponent).toNat / (denominator * 2 ^ exponent.toNat) : ℚ) <
      2 ^ 53 := by
    rw [scaled_div]
    calc
      numerator / denominator * (2 : ℚ) ^ (-exponent) <
          2 ^ (floorLog2 numerator denominator + 1) * 2 ^ (-exponent) :=
        mul_lt_mul_of_pos_right high (by positivity)
      _ = 2 ^ (floorLog2 numerator denominator + 1 - exponent) :=
        (zpow_add₀ two_ne_zero _ _).symm
      _ ≤ 2 ^ (53 : ℤ) := zpow_le_zpow_right₀ one_le_two (by omega)
      _ = 2 ^ 53 := zpow_natCast 2 53
  have most : roundHalfEven (numerator * twoPow (-exponent).toNat)
      (denominator * twoPow exponent.toNat) ≤ 2 ^ 53 := by
    refine roundHalfEven_le ?_
    rw [div_lt_iff₀ (by positivity)] at scaled
    simp only [twoPow_eq]
    exact_mod_cast scaled
  rw [infinityBits, twoPow_eq]
  omega

theorem isFinite_remainder {x : Float} {modulus : ℕ} (finite : isFinite x = true)
    (positive : 0 < modulus) (small : modulus ≤ 2 ^ 53) :
    isFinite (remainder x modulus) = true := by
  obtain ⟨value, read, -⟩ := exists_of_isFinite finite
  have scale : 0 < value.denominator := Nat.two_pow_pos _
  have below := Nat.mod_lt value.numerator (Nat.mul_pos positive scale)
  rw [remainder, read]
  refine isFinite_ofMagnitude (nearestBits_lt scale ?_)
  rw [div_lt_iff₀ (by exact_mod_cast scale)]
  calc
    ((value.numerator % (modulus * value.denominator) : ℕ) : ℚ) <
        modulus * value.denominator := by exact_mod_cast below
    _ ≤ 2 ^ 53 * value.denominator :=
      mul_le_mul_of_nonneg_right (by exact_mod_cast small) (by positivity)
    _ = 2 ^ (53 : ℤ) * value.denominator := by rw [← zpow_natCast, Nat.cast_ofNat]
    _ ≤ 2 ^ (1023 : ℤ) * value.denominator :=
      mul_le_mul_of_nonneg_right (zpow_le_zpow_right₀ one_le_two (by decide)) (by positivity)

end Remainders

end Quill.Number
