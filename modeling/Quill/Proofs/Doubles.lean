import Mathlib
import Quill.Number.Nearest
import Quill.Proofs.NumberSize

/-!
# Doubles and their bits

A double that is finite is determined by its sign, its significand and its exponent.  The exponent
is the smallest one there is, or the significand has 53 bits; so the fields of the bit pattern can
be read off and put together again.
-/

namespace Quill.Number

section Model

open Float.Model Float.Model.UnpackedFloat

theorem toNat_unpackExponent (bits : BitVec Format.binary64.numBits) :
    (unpackExponent bits).toNat = bits.toNat / twoPow 52 % twoPow 11 := by
  simp [unpackExponent, Nat.shiftRight_eq_div_pow, twoPow_eq]

theorem isInf_unpack {bits : BitVec Format.binary64.numBits}
    (inner : bits.toNat / twoPow 52 % twoPow 11 ≠ 2047) :
    (UnpackedFloat.unpack Format.binary64 bits).isInf = false := by
  have ones : unpackExponent bits ≠ -1#11 := by
    intro ones
    refine inner ((toNat_unpackExponent bits).symm.trans ?_)
    rw [ones]
    rfl
  simp only [UnpackedFloat.unpack, if_neg ones]
  split
  · split <;> rfl
  · rfl

end Model

/-- A magnitude as doubles have it: in the range of exponents, with 53 bits above the smallest. -/
structure Binary.Canonical (value : Binary) : Prop where
  significand : value.significand < 2 ^ 53
  least : -1074 ≤ value.exponent
  most : value.exponent ≤ 971
  full : value.exponent = -1074 ∨ 2 ^ 52 ≤ value.significand

/-- The bit pattern of a magnitude, with the fields next to each other. -/
def Binary.magnitudeBits (value : Binary) : Nat :=
  (value.exponent + 1074).toNat * twoPow 52 + value.significand

theorem Reading.canonical_of_finite {bits : Nat} {value : Binary}
    (finite : Reading.ofBits bits = .finite value) (range : bits < 2 ^ 64) :
    value.Canonical ∧ bits / twoPow 52 % twoPow 11 ≠ 2047 ∧
      bits = (if value.negative then twoPow 63 else 0) + value.magnitudeBits := by
  obtain ⟨significand, least, most⟩ := Reading.ofBits_finite finite
  simp only [ofBits] at finite
  split at finite
  · split at finite <;> cases finite
  rename_i inner
  have sign : bits / 2 ^ 63 = 0 ∨ bits / 2 ^ 63 = 1 := by omega
  split at finite
  all_goals
    cases finite
    simp only [twoPow_eq] at *
    refine ⟨⟨significand, least, most, ?_⟩, inner, ?_⟩
    · dsimp only
      omega
    · simp only [Binary.magnitudeBits, twoPow_eq, beq_iff_eq]
      split <;> omega

/-- A finite double is the one with the sign and the bit pattern that were read off it. -/
theorem Reading.ofMagnitude_of_finite {value : Float} {binary : Binary}
    (finite : Reading.of value = .finite binary) :
    binary.Canonical ∧ value.isInf = false ∧
      ofMagnitude binary.negative binary.magnitudeBits = value := by
  obtain ⟨canonical, inner, bits⟩ := Reading.canonical_of_finite finite value.toBits.toNat_lt
  refine ⟨canonical, isInf_unpack inner, ?_⟩
  rw [ofMagnitude, ← bits, UInt64.ofNat_toNat, Float.ofBits_toBits]

end Quill.Number
