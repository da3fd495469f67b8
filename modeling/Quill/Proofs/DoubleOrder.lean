import Quill.Proofs.DoubleRange

/-!
# Doubles in order

No double lies between a number and the one that it is rounded to, so a difference of doubles that
reaches up to some double still does so when it is rounded.  What was rounded is packed and taken
apart again without loss, and since its significand has all its bits unless the exponent is the
smallest, doubles are compared by their exponents first: in the order of what they stand for.
-/

namespace Quill.Number

open Float.Model Float.Model.UnpackedFloat

/-- A magnitude as rounding leaves it: with 53 bits above the smallest exponent, however large the
exponent is. -/
structure Binary.Placed (value : Binary) : Prop where
  significand : value.significand < 2 ^ 53
  least : -1074 ≤ value.exponent
  full : value.exponent = -1074 ∨ 2 ^ 52 ≤ value.significand

/-- Parts that rounding leaves behind and that stand for a magnitude of at least a given size. -/
inductive Reaches (size : ℚ) : UnpackedFloat → Prop
  | finite (sign : Sign) (value : Binary) (placed : value.Placed) (positive : 0 < value.significand)
      (reached : size ≤ value.magnitude) :
      Reaches size (.finite sign value.significand value.exponent positive)

section Order

variable {first second value : Binary}

theorem Binary.Canonical.placed (canonical : value.Canonical) : value.Placed :=
  ⟨canonical.significand, canonical.least, canonical.full⟩

theorem Binary.magnitude_pos : 0 < value.magnitude ↔ 0 < value.significand := by
  rw [magnitude, mul_pos_iff_of_pos_right (by positivity), Nat.cast_pos]

/-- Below the full range of an exponent there are only magnitudes with smaller exponents. -/
theorem Binary.magnitude_lt (bounded : first.significand < 2 ^ 53)
    (lower : first.exponent < second.exponent) (full : 2 ^ 52 ≤ second.significand) :
    first.magnitude < second.magnitude := by
  have bits : (first.significand : ℚ) < 2 ^ 53 := by exact_mod_cast bounded
  have all : ((2 : ℚ) ^ 52) ≤ second.significand := by exact_mod_cast full
  rw [magnitude, magnitude]
  calc
    first.significand * (2 : ℚ) ^ first.exponent < 2 ^ 53 * 2 ^ first.exponent :=
      mul_lt_mul_of_pos_right bits (by positivity)
    _ = 2 ^ 52 * 2 ^ (first.exponent + 1) := by
      rw [zpow_add_one₀ two_ne_zero]
      ring
    _ ≤ 2 ^ 52 * 2 ^ second.exponent :=
      mul_le_mul_of_nonneg_left (zpow_le_zpow_right₀ one_le_two (by omega)) (by positivity)
    _ ≤ second.significand * 2 ^ second.exponent :=
      mul_le_mul_of_nonneg_right all (by positivity)

theorem Binary.Placed.order (placed : first.Placed) (bounded : second.significand < 2 ^ 53)
    (least : -1074 ≤ second.exponent) (below : first.magnitude ≤ second.magnitude) :
    first.exponent < second.exponent ∨
      first.exponent = second.exponent ∧ first.significand ≤ second.significand := by
  rcases lt_trichotomy first.exponent second.exponent with less | same | more
  · exact .inl less
  · refine .inr ⟨same, ?_⟩
    rw [magnitude, magnitude, same] at below
    exact_mod_cast le_of_mul_le_mul_right below (by positivity)
  · rcases placed.full with least' | full
    · omega
    · exact absurd (magnitude_lt bounded more full) (not_lt.mpr below)

end Order

section Rounding

variable {sign : Sign} {significand : ℕ} {exponent : ℤ} {value : Binary}

theorem le_roundHalfEven {numerator denominator bound : ℕ} (positive : 0 < denominator)
    (below : bound * denominator ≤ numerator) : bound ≤ roundHalfEven numerator denominator := by
  have whole : bound ≤ numerator / denominator := (Nat.le_div_iff_mul_le positive).mpr below
  rcases roundHalfEven_cases numerator denominator with same | next
  · omega
  · omega

/-- No double lies between a number and the one that it is rounded down to. -/
theorem magnitude_le_rounded (positive : 0 < significand)
    (coarse : exponent ≤ lastPlace significand exponent) (bounded : value.significand < 2 ^ 53)
    (least : -1074 ≤ value.exponent) (below : value.magnitude ≤ significand * 2 ^ exponent) :
    value.magnitude ≤
      Binary.magnitude
        ⟨false, rounded significand exponent, lastPlace significand exponent⟩ := by
  rcases lt_or_ge value.exponent (lastPlace significand exponent) with finer | aligned
  · have full := le_rounded positive (lt_of_le_of_lt least finer) coarse
    exact (Binary.magnitude_lt bounded finer full).le
  · have units : value.magnitude =
        (value.significand * 2 ^ (value.exponent - lastPlace significand exponent).toNat : ℕ) *
          2 ^ lastPlace significand exponent := by
      have place : ((value.exponent - lastPlace significand exponent).toNat : ℤ) +
          lastPlace significand exponent = value.exponent := by omega
      rw [Binary.magnitude, Nat.cast_mul, Nat.cast_pow, Nat.cast_ofNat, ← zpow_natCast, mul_assoc,
        ← zpow_add₀ two_ne_zero, place]
    have place : ((lastPlace significand exponent - exponent).toNat : ℤ) + exponent =
        lastPlace significand exponent := by omega
    have dropped : (2 : ℚ) ^ lastPlace significand exponent =
        2 ^ (lastPlace significand exponent - exponent).toNat * 2 ^ exponent := by
      rw [← zpow_natCast, ← zpow_add₀ two_ne_zero, place]
    have whole : value.significand *
        2 ^ (value.exponent - lastPlace significand exponent).toNat *
          2 ^ (lastPlace significand exponent - exponent).toNat ≤ significand := by
      rw [units, dropped, ← mul_assoc] at below
      exact_mod_cast le_of_mul_le_mul_right below (by positivity)
    rw [units, Binary.magnitude]
    refine mul_le_mul_of_nonneg_right ?_ (by positivity)
    exact_mod_cast le_roundHalfEven (Nat.two_pow_pos _) whole

theorem Reaches.of_placed {size : ℚ} (sign : Sign) (placed : value.Placed)
    (reached : size ≤ value.magnitude) (positive : 0 < size) :
    Reaches size (if none : value.significand = 0 then .zero sign
      else .finite sign value.significand value.exponent (Nat.pos_of_ne_zero none)) := by
  have nonzero := Binary.magnitude_pos.mp (lt_of_lt_of_le positive reached)
  rw [dif_neg nonzero.ne']
  exact .finite sign value placed nonzero reached

/-- A significand that is rounded up to the next power of two is moved by one more place, and stands
for the same number. -/
theorem exists_placed_roundWithAccuracy (sign : Sign) (positive : 0 < significand)
    (coarse : exponent ≤ lastPlace significand exponent) :
    ∃ value : Binary, value.Placed ∧
      value.magnitude = rounded significand exponent * 2 ^ lastPlace significand exponent ∧
      roundWithAccuracy Format.binary64 sign significand exponent .exact =
        if none : value.significand = 0 then .zero sign
        else .finite sign value.significand value.exponent (Nat.pos_of_ne_zero none) := by
  have most := rounded_le coarse
  have lowest := least_le_lastPlace significand exponent
  have full : -1074 < lastPlace significand exponent → 2 ^ 52 ≤ rounded significand exponent :=
    fun inner => le_rounded positive inner coarse
  rw [roundWithAccuracy_eq coarse]
  dsimp only
  generalize lastPlace significand exponent = last at *
  generalize rounded significand exponent = whole at *
  rcases most.lt_or_eq with small | carries
  · have kept : (lastPlace whole last - last).toNat = 0 := by
      rcases Nat.eq_zero_or_pos whole with rfl | nonzero
      · rw [lastPlace, Nat.log2_zero]
        omega
      · have bits := (Nat.log2_lt nonzero.ne').mpr small
        rw [lastPlace]
        omega
    refine ⟨⟨false, whole, last⟩, ⟨small, lowest, ?_⟩, rfl, ?_⟩
    · dsimp only
      omega
    · simp only [kept, pow_zero, Nat.div_one, Nat.cast_zero, add_zero]
  · have carry : (lastPlace whole last - last).toNat = 1 := by
      rw [carries, lastPlace, Nat.log2_two_pow]
      omega
    have half : whole / 2 ^ 1 = 2 ^ 52 := by
      rw [carries]
      rfl
    refine ⟨⟨false, 2 ^ 52, last + 1⟩, ⟨?_, ?_, .inr le_rfl⟩, ?_, ?_⟩
    · exact Nat.pow_lt_pow_right (by decide) (by decide)
    · dsimp only
      omega
    · rw [Binary.magnitude, carries, zpow_add_one₀ two_ne_zero]
      push_cast
      ring
    · simp only [carry, half, Nat.cast_one]

/-- What is rounded reaches as far as a double below it. -/
theorem reaches_roundWithAccuracy (positive : 0 < significand)
    (coarse : exponent ≤ lastPlace significand exponent) (bounded : value.significand < 2 ^ 53)
    (least : -1074 ≤ value.exponent) (some : 0 < value.significand)
    (below : value.magnitude ≤ significand * 2 ^ exponent) :
    Reaches value.magnitude
      (roundWithAccuracy Format.binary64 sign significand exponent .exact) := by
  have size := Binary.magnitude_pos.mpr some
  have reached := magnitude_le_rounded positive coarse bounded least below
  obtain ⟨last, placed, same, parts⟩ := exists_placed_roundWithAccuracy sign positive coarse
  rw [parts]
  exact .of_placed sign placed (reached.trans same.ge) size

theorem reaches_round (positive : 0 < significand) (bounded : value.significand < 2 ^ 53)
    (least : -1074 ≤ value.exponent) (some : 0 < value.significand)
    (below : value.magnitude ≤ significand * 2 ^ exponent) :
    Reaches value.magnitude (UnpackedFloat.round Format.binary64 sign significand exponent) := by
  rw [UnpackedFloat.round, targetExponent_eq, decreaseExponent]
  dsimp only
  generalize shift : (exponent - lastPlace significand exponent).toNat = count
  have bits := log2_shiftLeft positive count
  have more : 0 < significand <<< count := by
    rw [Nat.shiftLeft_eq]
    positivity
  rw [← shiftLeft_mul significand count] at below
  refine reaches_roundWithAccuracy more ?_ bounded least some below
  rw [lastPlace] at shift ⊢
  omega

theorem reaches_normalize {whole : ℤ} (bounded : value.significand < 2 ^ 53)
    (least : -1074 ≤ value.exponent) (some : 0 < value.significand)
    (below : value.magnitude ≤ |(whole : ℚ) * 2 ^ exponent|) :
    Reaches value.magnitude (UnpackedFloat.normalize Format.binary64 whole exponent sign) := by
  have unit : (0 : ℚ) < 2 ^ exponent := by positivity
  rw [abs_mul, abs_of_pos unit] at below
  rw [UnpackedFloat.normalize]
  rcases lt_trichotomy whole 0 with negative | rfl | positive
  · have size : ((-whole).toNat : ℚ) = |(whole : ℚ)| := by
      rw [abs_of_neg (by exact_mod_cast negative)]
      exact_mod_cast Int.toNat_of_nonneg (by omega)
    rw [compare_lt_iff_lt.mpr negative]
    refine reaches_round (by omega) bounded least some ?_
    rwa [size]
  · rw [Int.cast_zero, abs_zero, zero_mul] at below
    exact absurd (Binary.magnitude_pos.mpr some) (not_lt.mpr below)
  · have size : (whole.toNat : ℚ) = |(whole : ℚ)| := by
      rw [abs_of_pos (by exact_mod_cast positive)]
      exact_mod_cast Int.toNat_of_nonneg positive.le
    rw [compare_gt_iff_gt.mpr positive]
    refine reaches_round (by omega) bounded least some ?_
    rwa [size]

end Rounding

section Packing

theorem unpacked_packed (result : UnpackedFloat) : (Reading.of (packed result)).unpacked =
    UnpackedFloat.unpack Format.binary64 (UnpackedFloat.pack Format.binary64 result) := by
  rw [← unpack_toModel]
  rfl

theorem unpackSign_packComponents {format : Format} (sign : Sign)
    (exponent : BitVec format.exponentBits)
    (mantissa : BitVec format.mantissaBitsWithoutImplicit) :
    unpackSign (packComponents format sign exponent mantissa) = sign.toBitVec := by
  ext index bound
  obtain rfl : index = 0 := by omega
  simp [unpackSign, packComponents, BitVec.getLsbD_append, BitVec.getElem_append]

theorem ofBitVec_toBitVec (sign : Sign) : Sign.ofBitVec sign.toBitVec = sign := by
  cases sign <;> rfl

/-- A significand with all its bits, of which the first is not stored. -/
theorem unpack_full {sign : Sign} {field significand : ℕ} (inner : 0 < field)
    (below : field < 2047) (full : 2 ^ 52 ≤ significand) (bounded : significand < 2 ^ 53)
    (positive : 0 < significand) :
    UnpackedFloat.unpack Format.binary64 (packComponents Format.binary64 sign
        (BitVec.ofNat _ field) (BitVec.ofNat _ significand)) =
      .finite sign significand (field - 1075) positive := by
  have range : 2 ^ Format.binary64.exponentBits = 2048 := rfl
  have own : (BitVec.ofNat Format.binary64.exponentBits field).toNat = field :=
    Nat.mod_eq_of_lt (by omega)
  have ones : BitVec.ofNat Format.binary64.exponentBits field ≠ -1#_ := by
    intro same
    rw [same] at own
    exact below.ne' own
  have zero : BitVec.ofNat Format.binary64.exponentBits field ≠ 0#_ := by
    intro same
    rw [same] at own
    exact inner.ne own
  have bias : (Format.binary64.exponentBias : ℤ) + Format.binary64.mantissaBitsWithoutImplicit =
      1075 := rfl
  have stored : (1#1 ++ BitVec.ofNat Format.binary64.mantissaBitsWithoutImplicit significand).toNat
      = significand := by
    have rest : significand % 2 ^ 52 = significand - 2 ^ 52 := by omega
    rw [toNat_one_append, BitVec.toNat_ofNat]
    exact (congrArg (2 ^ 52 + ·) rest).trans (by omega)
  simp only [UnpackedFloat.unpack, unpackMantissa_packComponents, unpackExponent_packComponents,
    unpackSign_packComponents, ofBitVec_toBitVec, bias]
  rw [if_neg ones, if_neg zero]
  simp only [own, stored]

/-- A significand with the smallest exponent that has not all the bits. -/
theorem unpack_small {sign : Sign} {significand : ℕ} (positive : 0 < significand)
    (bounded : significand < 2 ^ 52) :
    UnpackedFloat.unpack Format.binary64 (packComponents Format.binary64 sign 0#_
        (BitVec.ofNat _ significand)) =
      .finite sign significand (-1074) positive := by
  have ones : (0#_ : BitVec Format.binary64.exponentBits) ≠ -1#_ := by decide
  have own : (BitVec.ofNat Format.binary64.mantissaBitsWithoutImplicit significand).toNat =
      significand := Nat.mod_eq_of_lt bounded
  have some : BitVec.ofNat Format.binary64.mantissaBitsWithoutImplicit significand ≠ 0#_ := by
    intro none
    rw [none] at own
    exact positive.ne own
  simp only [UnpackedFloat.unpack, unpackMantissa_packComponents, unpackExponent_packComponents,
    unpackSign_packComponents, ofBitVec_toBitVec]
  rw [if_neg ones, if_pos trivial, dif_neg some]
  simp only [own]
  rfl

/-- Rounded parts are packed without loss, or their exponent is too large. -/
theorem Binary.Placed.unpacked_packed {value : Binary} (placed : value.Placed)
    (positive : 0 < value.significand) (sign : Sign) :
    (Reading.of (packed (.finite sign value.significand value.exponent positive))).unpacked =
      if 971 < value.exponent then .infinity sign
      else .finite sign value.significand value.exponent positive := by
  have bias : (Format.binary64.exponentBias : ℤ) = 1023 := rfl
  have width : (Format.binary64.mantissaBitsWithoutImplicit : ℤ) = 52 := rfl
  have range : 2 ^ Format.binary64.exponentBits = 2048 := rfl
  have bits : Format.binary64.mantissaBits = 53 := rfl
  obtain ⟨bounded, least, full⟩ := placed
  rw [Number.unpacked_packed, UnpackedFloat.pack]
  simp only [bias, width, range, bits]
  by_cases large : 971 < value.exponent
  · rw [if_pos large, if_pos (by omega)]
    cases sign <;> rfl
  rw [if_neg large, if_neg (by omega)]
  have place : ((value.exponent + 1023 + 52).toNat : ℤ) - 1075 = value.exponent := by omega
  split
  · rename_i whole
    have all : 2 ^ 52 ≤ value.significand :=
      (Nat.le_log2 positive.ne').mp (by omega)
    rw [unpack_full (by omega) (by omega) all bounded positive]
    simp only [place]
  · rename_i short
    have few : value.significand < 2 ^ 52 := by
      refine (Nat.log2_lt positive.ne').mp ?_
      have most := (Nat.log2_lt positive.ne').mpr bounded
      omega
    have last : value.exponent = -1074 := full.resolve_right (by omega)
    rw [unpack_small positive few]
    simp only [last]

end Packing

section Differences

variable {x y bound : Float} {value : Binary}

theorem abs_eq_packed (x : Float) : x.abs = packed (Reading.of x).unpacked.abs := by
  rw [← unpack_toModel]
  rfl

theorem le_iff_unpacked (x y : Float) :
    x ≤ y ↔ (Reading.of x).unpacked.le (Reading.of y).unpacked = true := by
  rw [← unpack_toModel, ← unpack_toModel]
  exact decide_eq_true_iff

theorem beq_eq (x y : Float) :
    (x == y) = (Reading.of x).unpacked.beq (Reading.of y).unpacked := by
  rw [← unpack_toModel, ← unpack_toModel]
  rfl

/-- A difference of finite doubles reaches as far as a double below the exact one. -/
theorem reaches_sub (left : isFinite x = true) (right : isFinite y = true)
    (bounded : value.significand < 2 ^ 53) (least : -1074 ≤ value.exponent)
    (some : 0 < value.significand) (below : value.magnitude ≤ |valueOf x - valueOf y|) :
    Reaches value.magnitude
      (UnpackedFloat.sub Format.binary64 (Reading.of x).unpacked (Reading.of y).unpacked) := by
  cases Parts.of_isFinite left with
  | zero sign parts stands =>
      rw [stands, zero_sub, abs_neg] at below
      rw [parts]
      cases Parts.of_isFinite right with
      | zero other parts stands =>
          rw [stands, abs_zero] at below
          exact absurd (Binary.magnitude_pos.mpr some) (not_lt.mpr below)
      | nonzero second canonical positive parts stands =>
          rw [stands, Binary.abs_signed] at below
          rw [parts]
          exact .finite _ second canonical.placed positive below
  | nonzero first canonical positive parts stands =>
      rw [stands] at below
      rw [parts]
      cases Parts.of_isFinite right with
      | zero other parts zero =>
          rw [zero, sub_zero, Binary.abs_signed] at below
          rw [parts]
          exact .finite _ first canonical.placed positive below
      | nonzero second canonicalSecond more parts other =>
          rw [other] at below
          rw [parts, UnpackedFloat.sub]
          dsimp only
          refine reaches_normalize bounded least some ?_
          rwa [Int.cast_sub, sub_mul, first.aligned (min_le_left _ _),
            second.aligned (min_le_right _ _)]

/-- Positive parts are in order if their exponents are, or the exponents agree and the significands
are in order. -/
theorem le_finite {significand significand' : ℕ} {exponent exponent' : ℤ}
    (positive : 0 < significand) (positive' : 0 < significand')
    (order : exponent < exponent' ∨ exponent = exponent' ∧ significand ≤ significand') :
    (UnpackedFloat.finite .positive significand exponent positive).le
      (.finite .positive significand' exponent' positive') = true := by
  rw [UnpackedFloat.le, UnpackedFloat.compare, Option.any_some]
  rcases order with less | ⟨same, bounded⟩
  · rw [compare_lt_iff_lt.mpr less]
    rfl
  · rw [compare_eq_iff_eq.mpr same]
    rcases bounded.lt_or_eq with less | equal
    · rw [compare_lt_iff_lt.mpr less]
      rfl
    · rw [compare_eq_iff_eq.mpr equal]
      rfl

/-- A positive double is no larger than the size of what reaches up to it. -/
theorem Reaches.le_abs {result : UnpackedFloat} (reaches : Reaches value.magnitude result)
    (canonical : value.Canonical) (some : 0 < value.significand)
    (read : (Reading.of bound).unpacked =
      .finite .positive value.significand value.exponent some) :
    bound ≤ (packed result).abs := by
  cases reaches with
  | finite sign reached placed positive below =>
      have order := canonical.placed.order placed.significand placed.least below
      rw [le_iff_unpacked, read, abs_eq_packed, placed.unpacked_packed positive sign]
      split
      · rw [UnpackedFloat.abs, unpacked_packed]
        rfl
      · rename_i inner
        rw [UnpackedFloat.abs, placed.unpacked_packed positive, if_neg inner]
        exact le_finite some positive order

/-- A difference of finite doubles that is no smaller than a positive double stays so when it is
rounded. -/
theorem le_abs_sub (left : isFinite x = true) (right : isFinite y = true)
    (read : Reading.of bound = .finite value) (positive : 0 < value.signed)
    (below : value.signed ≤ |valueOf x - valueOf y|) : bound ≤ (x - y).abs := by
  obtain ⟨canonical, -⟩ := Reading.ofMagnitude_of_finite read
  have sign : value.negative = false := by
    by_contra negative
    rw [Binary.signed, if_pos (by simpa using negative), neg_pos, Binary.magnitude] at positive
    exact absurd positive (not_lt.mpr (by positivity))
  have size : value.signed = value.magnitude := by
    rw [Binary.signed, sign]
    rfl
  rw [size] at positive below
  have some := Binary.magnitude_pos.mp positive
  have parts : (Reading.of bound).unpacked =
      .finite .positive value.significand value.exponent some := by
    rw [read, Reading.unpacked, dif_pos some, sign]
    rfl
  rw [sub_eq]
  exact (reaches_sub left right canonical.significand canonical.least some below).le_abs
    canonical some parts

end Differences

section Comparison

variable {first second : Binary} {x y : Float}

theorem lt_iff_unpacked (x y : Float) :
    x < y ↔ (Reading.of x).unpacked.lt (Reading.of y).unpacked = true := by
  rw [← unpack_toModel, ← unpack_toModel]
  exact decide_eq_true_iff

/-- Magnitudes are compared by their exponents first. -/
theorem Binary.Placed.compare_magnitude (placed : first.Placed) (placed' : second.Placed) :
    (compare first.exponent second.exponent).then (compare first.significand second.significand) =
      compare first.magnitude second.magnitude := by
  have least := placed.least
  have least' := placed'.least
  rcases lt_trichotomy first.exponent second.exponent with less | same | more
  · have larger := magnitude_lt placed.significand less (placed'.full.resolve_left (by omega))
    rw [compare_lt_iff_lt.mpr less, compare_lt_iff_lt.mpr larger]
    rfl
  · have unit : (0 : ℚ) < 2 ^ second.exponent := by positivity
    rw [magnitude, magnitude, same, compare_eq_iff_eq.mpr rfl]
    change compare first.significand second.significand = _
    rcases lt_trichotomy first.significand second.significand with less | equal | more
    · have below : (first.significand : ℚ) < second.significand := by exact_mod_cast less
      rw [compare_lt_iff_lt.mpr less, compare_lt_iff_lt.mpr (mul_lt_mul_of_pos_right below unit)]
    · rw [equal, compare_eq_iff_eq.mpr rfl, compare_eq_iff_eq.mpr rfl]
    · have above : (second.significand : ℚ) < first.significand := by exact_mod_cast more
      rw [compare_gt_iff_gt.mpr more, compare_gt_iff_gt.mpr (mul_lt_mul_of_pos_right above unit)]
  · have smaller := magnitude_lt placed'.significand more (placed.full.resolve_left (by omega))
    rw [compare_gt_iff_gt.mpr more, compare_gt_iff_gt.mpr smaller]
    rfl

theorem compare_neg_neg (x y : ℚ) : compare (-x) (-y) = (compare x y).swap := by
  rcases lt_trichotomy x y with less | rfl | more
  · rw [compare_lt_iff_lt.mpr less, compare_gt_iff_gt.mpr (neg_lt_neg less)]
    rfl
  · rw [compare_eq_iff_eq.mpr rfl, compare_eq_iff_eq.mpr rfl]
    rfl
  · rw [compare_gt_iff_gt.mpr more, compare_lt_iff_lt.mpr (neg_lt_neg more)]
    rfl

/-- Finite doubles are compared as the numbers that they stand for. -/
theorem compare_unpacked (left : isFinite x = true) (right : isFinite y = true) :
    (Reading.of x).unpacked.compare (Reading.of y).unpacked =
      some (compare (valueOf x) (valueOf y)) := by
  cases Parts.of_isFinite left with
  | zero sign parts stands =>
      rw [parts, stands]
      cases Parts.of_isFinite right with
      | zero other parts' stands' =>
          rw [parts', stands', compare_eq_iff_eq.mpr rfl]
          rfl
      | nonzero second canonical positive parts' stands' =>
          have size := Binary.magnitude_pos.mpr positive
          rw [parts', stands', Binary.signed]
          cases second.negative with
          | false => exact congrArg some (compare_lt_iff_lt.mpr size).symm
          | true => exact congrArg some (compare_gt_iff_gt.mpr (neg_lt_zero.mpr size)).symm
  | nonzero first canonical positive parts stands =>
      have size := Binary.magnitude_pos.mpr positive
      rw [parts, stands, Binary.signed]
      cases Parts.of_isFinite right with
      | zero other parts' stands' =>
          rw [parts', stands']
          cases first.negative with
          | false => exact congrArg some (compare_gt_iff_gt.mpr size).symm
          | true => exact congrArg some (compare_lt_iff_lt.mpr (neg_lt_zero.mpr size)).symm
      | nonzero second canonical' positive' parts' stands' =>
          have size' := Binary.magnitude_pos.mpr positive'
          have order := canonical.placed.compare_magnitude canonical'.placed
          rw [parts', stands', Binary.signed]
          cases first.negative with
          | false =>
              cases second.negative with
              | false => exact congrArg some order
              | true =>
                  refine congrArg some (compare_gt_iff_gt.mpr ?_).symm
                  exact (neg_lt_zero.mpr size').trans size
          | true =>
              cases second.negative with
              | false =>
                  refine congrArg some (compare_lt_iff_lt.mpr ?_).symm
                  exact (neg_lt_zero.mpr size).trans size'
              | true =>
                  refine congrArg some (Eq.trans ?_ (compare_neg_neg _ _).symm)
                  exact congrArg Ordering.swap order

theorem valueOf_zero : valueOf 0 = 0 := by
  decide +kernel

theorem lt_iff_valueOf (left : isFinite x = true) (right : isFinite y = true) :
    x < y ↔ valueOf x < valueOf y := by
  rw [lt_iff_unpacked, UnpackedFloat.lt, compare_unpacked left right, beq_iff_eq, Option.some_inj,
    compare_lt_iff_lt]

theorem beq_iff_valueOf (left : isFinite x = true) (right : isFinite y = true) :
    (x == y) = true ↔ valueOf x = valueOf y := by
  rw [beq_eq, UnpackedFloat.beq, compare_unpacked left right, beq_iff_eq, Option.some_inj,
    compare_eq_iff_eq]

/-- What equals a finite double is finite. -/
theorem isFinite_of_beq (right : isFinite y = true) (equal : (x == y) = true) :
    isFinite x = true := by
  rw [isFinite_unpacked] at right ⊢
  rw [beq_eq] at equal
  cases left : (Reading.of x).unpacked with
  | zero | finite => rfl
  | notANumber =>
      rw [left] at equal
      cases equal
  | infinity sign =>
      rw [left] at equal
      cases parts : (Reading.of y).unpacked with
      | notANumber | infinity =>
          rw [parts] at right
          cases right
      | zero | finite =>
          rw [parts] at equal
          cases sign <;> cases equal

/-- A double below zero is a finite one that stands for a negative number, or infinite. -/
theorem lt_zero_cases (negative : x < 0) :
    Reading.of x = .infinite true ∨ isFinite x = true ∧ valueOf x < 0 := by
  cases read : Reading.of x with
  | undefined =>
      rw [lt_iff_unpacked, read] at negative
      cases negative
  | infinite sign =>
      cases sign with
      | true => exact .inl rfl
      | false =>
          have above : (Reading.infinite false).unpacked.lt (Reading.of 0).unpacked = false := by
            decide +kernel
          rw [lt_iff_unpacked, read, above] at negative
          cases negative
  | finite value =>
      have finite : isFinite x = true := by rw [isFinite, read]
      rw [lt_iff_valueOf finite isFinite_zero, valueOf_zero] at negative
      exact .inr ⟨finite, negative⟩

end Comparison

end Quill.Number
