import Quill.Proofs.NumberShape
import Quill.Proofs.ShortestDigits

/-!
# Rounding to doubles

The arithmetic of doubles takes the operands apart into signs, significands and exponents, and
packs what it has made of them into a double again.  Before that it drops the bits of the
significand that have no place, and rounds it to the nearest one that is left, a half to the even
one.  What is packed is finite unless its exponent is too large, and one sees that from the rounded
significand.
-/

namespace Quill.Number

open Float.Model Float.Model.UnpackedFloat

section Unpacking

variable (bits : BitVec Format.binary64.numBits)

theorem toNat_unpackMantissa : (unpackMantissa bits).toNat = bits.toNat % twoPow 52 := by
  simp [unpackMantissa, twoPow_eq]

theorem toNat_unpackSign : (unpackSign bits).toNat = bits.toNat / twoPow 63 % 2 := by
  simp [unpackSign, Nat.shiftRight_eq_div_pow, twoPow_eq]

theorem toNat_one_append {width : ℕ} (bits : BitVec width) :
    (1#1 ++ bits).toNat = 2 ^ width + bits.toNat := by
  rw [BitVec.toNat_append, ← Nat.shiftLeft_add_eq_or_of_lt bits.isLt, Nat.shiftLeft_eq]
  simp

def signOf (negative : Bool) : Sign :=
  if negative then .negative else .positive

theorem signOf_unpackSign :
    Sign.ofBitVec (unpackSign bits) = signOf (bits.toNat / twoPow 63 % 2 == 1) := by
  rw [← toNat_unpackSign]
  rcases BitVec.eq_zero_or_eq_one (unpackSign bits) with zero | one
  · rw [zero]
    rfl
  · rw [one]
    rfl

/-- The parts that a double is taken apart into. -/
def Reading.unpacked : Reading → UnpackedFloat
  | .undefined => .notANumber
  | .infinite negative => .infinity (signOf negative)
  | .finite value =>
    if positive : 0 < value.significand then
      .finite (signOf value.negative) value.significand value.exponent positive
    else .zero (signOf value.negative)

theorem unpack_toModel (value : Float) : value.toModel.unpack = (Reading.of value).unpacked := by
  have exponent := toNat_unpackExponent value.toModel.toBits.toBitVec
  have fraction := toNat_unpackMantissa value.toModel.toBits.toBitVec
  have sign := signOf_unpackSign value.toModel.toBits.toBitVec
  have bits : value.toModel.toBits.toBitVec.toNat = value.toBits.toNat := rfl
  have ones : (-1#11).toNat = 2047 := rfl
  have bias : (Format.binary64.exponentBias : ℤ) + Format.binary64.mantissaBitsWithoutImplicit =
      1075 := rfl
  rw [bits] at exponent fraction sign
  rw [Float.Model.unpack, UnpackedFloat.unpack, Reading.of, Reading.ofBits]
  simp only [← BitVec.toNat_inj, exponent, fraction, sign, bias, ones, toNat_one_append]
  by_cases top : value.toBits.toNat / twoPow 52 % twoPow 11 = 2047
  · rw [if_pos top, if_pos top]
    by_cases none : value.toBits.toNat % twoPow 52 = 0
    · rw [if_pos none]
      exact if_pos none
    · rw [if_neg none]
      exact if_neg none
  rw [if_neg top, if_neg top]
  by_cases least : value.toBits.toNat / twoPow 52 % twoPow 11 = 0
  · rw [if_pos least, Reading.unpacked]
    by_cases none : value.toBits.toNat % twoPow 52 = 0
    · simp [least, none]
    · simp [least, none, Nat.pos_of_ne_zero none]
  · have some : 0 < twoPow 52 + value.toBits.toNat % twoPow 52 :=
      Nat.add_pos_left (Nat.two_pow_pos 52) _
    rw [if_neg least, Reading.unpacked, dif_pos some]
    exact if_neg least

end Unpacking

section Packing

/-- The double that parts are put together to. -/
def packed (result : UnpackedFloat) : Float :=
  .ofModel (.pack result)

variable {sign : Sign} {significand : ℕ} {exponent : ℤ} {value : Binary}

theorem isFinite_iff_exponent (number : Float) :
    isFinite number = true ↔ number.toBits.toNat / twoPow 52 % twoPow 11 ≠ 2047 := by
  rw [isFinite, Reading.of, Reading.ofBits]
  by_cases top : number.toBits.toNat / twoPow 52 % twoPow 11 = 2047
  · by_cases none : number.toBits.toNat % twoPow 52 = 0
    · simp [top, none]
    · simp [top, none]
  · by_cases least : number.toBits.toNat / twoPow 52 % twoPow 11 = 0
    · simp [least]
    · simp [top, least]

theorem isFinite_packed (result : UnpackedFloat) :
    isFinite (packed result) = true ↔
      (unpackExponent (UnpackedFloat.pack Format.binary64 result)).toNat ≠ 2047 := by
  rw [isFinite_iff_exponent, toNat_unpackExponent]
  rfl

theorem not_isFinite_packed_notANumber : ¬ isFinite (packed .notANumber) = true := by
  rw [isFinite_packed, UnpackedFloat.pack]
  decide

theorem not_isFinite_packed_infinity (sign : Sign) :
    ¬ isFinite (packed (.infinity sign)) = true := by
  rw [isFinite_packed, UnpackedFloat.pack]
  cases sign <;> decide

theorem isFinite_packed_zero (sign : Sign) : isFinite (packed (.zero sign)) = true := by
  rw [isFinite_packed, UnpackedFloat.pack, packedZero, unpackExponent_packComponents]
  decide

theorem isFinite_packed_finite (positive : 0 < significand) (least : -1074 ≤ exponent) :
    isFinite (packed (.finite sign significand exponent positive)) = true ↔ exponent ≤ 971 := by
  have bias : (Format.binary64.exponentBias : ℤ) = 1023 := rfl
  have width : (Format.binary64.mantissaBitsWithoutImplicit : ℤ) = 52 := rfl
  have range : 2 ^ Format.binary64.exponentBits = 2048 := rfl
  rw [isFinite_packed, UnpackedFloat.pack]
  simp only [bias, width, range]
  split
  · rw [packedInfinity, unpackExponent_packComponents]
    exact iff_of_false (by decide) (by omega)
  split
  · rw [unpackExponent_packComponents, BitVec.toNat_ofNat, range, Nat.mod_eq_of_lt (by omega)]
    omega
  · rw [unpackExponent_packComponents]
    exact iff_of_true (by decide) (by omega)

theorem Binary.Canonical.isFinite_packed (canonical : value.Canonical)
    (positive : 0 < value.significand) :
    isFinite (packed (.finite sign value.significand value.exponent positive)) = true :=
  (isFinite_packed_finite positive canonical.least).mpr canonical.most

/-- A double is finite if the exponent field of its bit pattern is not full. -/
theorem isFinite_ofBits {bits : UInt64} (inner : bits.toNat / twoPow 52 % twoPow 11 ≠ 2047) :
    isFinite (Float.ofBits bits) = true := by
  have same : Float.ofBits bits = packed (UnpackedFloat.unpack Format.binary64 bits.toBitVec) := rfl
  have bias : (Format.binary64.exponentBias : ℤ) = 1023 := rfl
  have width : (Format.binary64.mantissaBitsWithoutImplicit : ℤ) = 52 := rfl
  have range : (@unpackExponent Format.binary64 bits.toBitVec).toNat < 2048 :=
    BitVec.isLt _
  have below : (@unpackExponent Format.binary64 bits.toBitVec).toNat ≠ 2047 :=
    fun ones => inner ((toNat_unpackExponent bits.toBitVec).symm.trans ones)
  rw [same, UnpackedFloat.unpack]
  simp only [bias, width]
  split
  · rename_i ones
    rw [ones] at below
    exact (below rfl).elim
  split
  · rename_i least
    split
    · exact isFinite_packed_zero _
    · rw [isFinite_packed_finite] <;> simp [least]
  · rename_i nonzero
    have least : (@unpackExponent Format.binary64 bits.toBitVec).toNat ≠ 0 :=
      fun zero => nonzero (BitVec.eq_of_toNat_eq zero)
    rw [isFinite_packed_finite] <;> omega

theorem isFinite_ofMagnitude {negative : Bool} {bits : ℕ} (below : bits < infinityBits) :
    isFinite (ofMagnitude negative bits) = true := by
  refine isFinite_ofBits ?_
  rw [UInt64.toNat_ofNat', infinityBits] at *
  simp only [twoPow_eq] at *
  split <;> omega

end Packing

section Rounding

variable {sign : Sign} {significand : ℕ} {exponent : ℤ}

/-- Bits that are dropped leave behind the last of them, and whether another one was set. -/
theorem shifted_eq (significand count : ℕ) :
    (count + 1).repeat ExtendedMantissa.shiftRightOne ⟨significand, false, false⟩ =
      ⟨significand / 2 ^ (count + 1), significand / 2 ^ count % 2 != 0,
        significand % 2 ^ count != 0⟩ := by
  induction count with
  | zero => simp [Nat.repeat, ExtendedMantissa.shiftRightOne, Nat.mod_one]
  | succ count ih =>
      rw [Nat.repeat, ih, ExtendedMantissa.shiftRightOne, ExtendedMantissa.mk.injEq]
      refine ⟨?_, rfl, ?_⟩
      · rw [Nat.div_div_eq_div_mul, ← pow_succ]
      · have positive := Nat.two_pow_pos count
        rw [pow_succ, Nat.mod_mul, ← Bool.coe_iff_coe]
        simp
        omega

theorem mantissa_shift (significand count : ℕ) :
    (ExtendedMantissa.mk significand false false >>> count).mantissa =
      significand / 2 ^ count := by
  cases count with
  | zero => exact (Nat.div_one significand).symm
  | succ count =>
      change ((count + 1).repeat ExtendedMantissa.shiftRightOne
        ⟨significand, false, false⟩).mantissa = _
      rw [shifted_eq]

theorem roundedMantissa_eq (significand : ℕ) (half rest : Bool) :
    (ExtendedMantissa.mk significand half rest).roundedMantissa =
      if half then if rest then significand + 1 else significand + significand % 2
      else significand := by
  cases half <;> cases rest <;> rfl

/-- What the dropped bits leave behind is enough to round to the nearest significand. -/
theorem roundedMantissa_shift (significand count : ℕ) :
    (ExtendedMantissa.mk significand false false >>> count).roundedMantissa =
      roundHalfEven significand (2 ^ count) := by
  cases count with
  | zero =>
      change (ExtendedMantissa.mk significand false false).roundedMantissa = _
      rw [roundedMantissa_eq, roundHalfEven, pow_zero, Nat.mod_one, Nat.div_one]
      rfl
  | succ count =>
      change ((count + 1).repeat ExtendedMantissa.shiftRightOne
        ⟨significand, false, false⟩).roundedMantissa = _
      have rest := Nat.mod_lt significand (Nat.two_pow_pos count)
      have double : 2 ^ (count + 1) = 2 * 2 ^ count := pow_succ' 2 count
      have whole : significand % 2 ^ (count + 1) =
          significand % 2 ^ count + 2 ^ count * (significand / 2 ^ count % 2) := by
        rw [pow_succ, Nat.mod_mul]
      rw [shifted_eq, roundedMantissa_eq]
      rcases Nat.mod_two_eq_zero_or_one (significand / 2 ^ count) with below | above
      · rw [below, Nat.mul_zero] at whole
        have less : 2 * (significand % 2 ^ (count + 1)) < 2 ^ (count + 1) := by omega
        simp [roundHalfEven, below, less]
      · rw [above, Nat.mul_one] at whole
        have least : ¬ 2 * (significand % 2 ^ (count + 1)) < 2 ^ (count + 1) := by omega
        by_cases tie : significand % 2 ^ count = 0
        · have most : ¬ 2 ^ (count + 1) < 2 * (significand % 2 ^ (count + 1)) := by omega
          simp [roundHalfEven, above, tie, least, most]
        · have more : 2 ^ (count + 1) < 2 * (significand % 2 ^ (count + 1)) := by omega
          simp [roundHalfEven, above, tie, least, more]

/-- The exponent of the last place that a number has room for. -/
def lastPlace (significand : ℕ) (exponent : ℤ) : ℤ :=
  max (significand.log2 + exponent - 52) (-1074)

/-- A significand without the bits below the last place, rounded. -/
def rounded (significand : ℕ) (exponent : ℤ) : ℕ :=
  roundHalfEven significand (2 ^ (lastPlace significand exponent - exponent).toNat)

theorem least_le_lastPlace (significand : ℕ) (exponent : ℤ) :
    -1074 ≤ lastPlace significand exponent :=
  le_max_right _ _

theorem targetExponent_eq (significand : ℕ) (exponent : ℤ) :
    Format.binary64.targetExponent (totalExponent significand exponent) =
      lastPlace significand exponent := by
  simp only [Format.targetExponent, totalExponent, Format.mantissaBits, Format.minExponent,
    lastPlace]
  omega

theorem rounded_le (coarse : exponent ≤ lastPlace significand exponent) :
    rounded significand exponent ≤ 2 ^ 53 := by
  refine roundHalfEven_le ?_
  rw [← pow_add]
  refine lt_of_lt_of_le Nat.lt_log2_self (Nat.pow_le_pow_right (by decide) ?_)
  rw [lastPlace] at *
  omega

/-- Above the smallest exponent the rounded significand has all its bits. -/
theorem le_rounded (positive : 0 < significand) (inner : -1074 < lastPlace significand exponent)
    (coarse : exponent ≤ lastPlace significand exponent) :
    2 ^ 52 ≤ rounded significand exponent := by
  have full : significand.log2 = 52 + (lastPlace significand exponent - exponent).toNat := by
    rw [lastPlace] at *
    omega
  have least : 2 ^ 52 ≤ significand / 2 ^ (lastPlace significand exponent - exponent).toNat := by
    rw [Nat.le_div_iff_mul_le (Nat.two_pow_pos _), ← pow_add, ← full]
    exact Nat.log2_self_le positive.ne'
  rw [rounded]
  rcases roundHalfEven_cases significand (2 ^ (lastPlace significand exponent - exponent).toNat)
    with same | next
  · omega
  · omega

/-- A significand that is rounded up to the next power of two is moved by one more place. -/
theorem roundWithAccuracy_eq (coarse : exponent ≤ lastPlace significand exponent) :
    roundWithAccuracy Format.binary64 sign significand exponent .exact =
      let last := lastPlace significand exponent
      let rounded := rounded significand exponent
      let carry := (lastPlace rounded last - last).toNat
      if none : rounded / 2 ^ carry = 0 then .zero sign
      else .finite sign (rounded / 2 ^ carry) (last + carry) (Nat.pos_of_ne_zero none) := by
  have place : exponent + (lastPlace significand exponent - exponent).toNat =
      lastPlace significand exponent := by omega
  simp only [roundWithAccuracy, shiftToTargetExponent, shiftToExponent, targetExponent_eq,
    ExtendedMantissa.ofMantissaAndAccuracy, mantissa_shift, roundedMantissa_shift, place]
  rfl

/-- What is rounded stays finite up to the largest exponent, unless it carries beyond that. -/
theorem isFinite_rounded_iff (coarse : exponent ≤ lastPlace significand exponent) :
    isFinite (packed (roundWithAccuracy Format.binary64 sign significand exponent .exact)) =
        true ↔
      rounded significand exponent = 0 ∨ lastPlace significand exponent ≤ 970 ∨
        lastPlace significand exponent = 971 ∧ rounded significand exponent < 2 ^ 53 := by
  have least := least_le_lastPlace significand exponent
  have most := rounded_le coarse
  rw [roundWithAccuracy_eq coarse]
  dsimp only
  generalize lastPlace significand exponent = last at *
  rcases most.lt_or_eq with below | carries
  · have bits : (rounded significand exponent).log2 < 53 := by
      rcases Nat.eq_zero_or_pos (rounded significand exponent) with none | some
      · rw [none]
        decide
      · exact (Nat.log2_lt some.ne').mpr below
    have kept : (lastPlace (rounded significand exponent) last - last).toNat = 0 := by
      rw [lastPlace]
      omega
    simp only [kept, pow_zero, Nat.div_one]
    split
    · rename_i none
      exact iff_of_true (isFinite_packed_zero sign) (.inl none)
    · rw [isFinite_packed_finite _ (by omega)]
      omega
  · have carry : (lastPlace (rounded significand exponent) last - last).toNat = 1 := by
      rw [carries, lastPlace, Nat.log2_two_pow]
      omega
    have some : rounded significand exponent / 2 ^ 1 ≠ 0 := by
      rw [carries]
      decide
    simp only [carry]
    rw [dif_neg some, isFinite_packed_finite _ (by omega)]
    omega

end Rounding

end Quill.Number
