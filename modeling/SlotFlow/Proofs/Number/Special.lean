import Mathlib.Algebra.Ring.Nat
import SlotFlow.Number.Reading

/-!
# Floats that are not finite

A float that reads as an infinity, or as what is not a number, is the one float of
that reading.

Main statements:

* `eq_of_readSingle_nan`, `eq_of_readDouble_nan`: there is one float that is not a number;
* `eq_of_readSingle_infinite`, `eq_of_readDouble_infinite`: there is one infinity of each
  sign.
-/

namespace SlotFlow
namespace Number

open Float.Model Float.Model.UnpackedFloat

/-- A float is known by its bits. -/
theorem single_eq_of_toBits_eq
    {x y : Float32}
    (h : x.toBits = y.toBits) :
    x = y := by
  obtain ⟨⟨bits, hbits⟩⟩ := x
  obtain ⟨⟨other, hother⟩⟩ := y
  have heq : bits = other := h
  subst heq
  rfl

/-- A double is known by its bits. -/
theorem double_eq_of_toBits_eq
    {x y : Float}
    (h : x.toBits = y.toBits) :
    x = y := by
  obtain ⟨⟨bits, hbits⟩⟩ := x
  obtain ⟨⟨other, hother⟩⟩ := y
  have heq : bits = other := h
  subst heq
  rfl

/-- What reads as no number has the greatest exponent field and a mantissa. -/
theorem fields_of_read_nan
    {f : Number.Format}
    {bits : Nat}
    (h : f.read bits = .nan) :
    bits / 2 ^ f.mantissaBits % 2 ^ f.exponentBits = 2 ^ f.exponentBits - 1 ∧
      bits % 2 ^ f.mantissaBits ≠ 0 := by
  unfold Number.Format.read at h
  simp only at h
  split at h
  · split at h
    · cases h
    · constructor <;> assumption
  · split at h <;> cases h

/-- What reads as an infinity has the greatest exponent field, no mantissa, and its sign. -/
theorem fields_of_read_infinite
    {f : Number.Format}
    {bits : Nat}
    {negative : Bool}
    (h : f.read bits = .infinite negative) :
    bits / 2 ^ f.mantissaBits % 2 ^ f.exponentBits = 2 ^ f.exponentBits - 1 ∧
      bits % 2 ^ f.mantissaBits = 0 ∧
      bits.testBit (f.mantissaBits + f.exponentBits) = negative := by
  unfold Number.Format.read at h
  simp only at h
  split at h
  · split at h
    · cases h
      refine ⟨?_, ?_, rfl⟩ <;> assumption
    · cases h
  · split at h <;> cases h

/-- The exponent field of a packed float. -/
theorem toNat_unpackExponent
    {spec : Float.Model.Format}
    (b : BitVec spec.numBits) :
    (unpackExponent b).toNat =
      b.toNat / 2 ^ spec.mantissaBitsWithoutImplicit % 2 ^ spec.exponentBits := by
  have he := spec.he
  have hwidth :
      spec.mantissaBitsWithoutImplicit + spec.exponentBits - 1 -
        spec.mantissaBitsWithoutImplicit + 1 = spec.exponentBits := by
    omega
  simp [unpackExponent, Nat.shiftRight_eq_div_pow, hwidth]

/-- The mantissa field of a packed float. -/
theorem toNat_unpackMantissa
    {spec : Float.Model.Format}
    (b : BitVec spec.numBits) :
    (unpackMantissa b).toNat = b.toNat % 2 ^ spec.mantissaBitsWithoutImplicit := by
  have hm := spec.hm
  have hwidth :
      spec.mantissaBitsWithoutImplicit - 1 + 1 = spec.mantissaBitsWithoutImplicit := by
    omega
  simp [unpackMantissa, hwidth]

/-- Valid bits that read as no number are the canonical ones. -/
theorem eq_packedNaN_of_fields
    {spec : Float.Model.Format}
    {b : BitVec spec.numBits}
    (hvalid : spec.Valid b)
    (hexponent :
      b.toNat / 2 ^ spec.mantissaBitsWithoutImplicit % 2 ^ spec.exponentBits =
        2 ^ spec.exponentBits - 1)
    (hmantissa : b.toNat % 2 ^ spec.mantissaBitsWithoutImplicit ≠ 0) :
    b = packedNaN spec := by
  apply hvalid.eq_packedNaN
  · apply BitVec.eq_of_toNat_eq
    rw [toNat_unpackExponent, hexponent, BitVec.neg_one_eq_allOnes, BitVec.toNat_allOnes]
  · intro hzero
    have hnat := congrArg BitVec.toNat hzero
    rw [toNat_unpackMantissa] at hnat
    exact hmantissa (by simpa using hnat)

/-- There is one 32-bit float that is not a number. -/
theorem eq_of_readSingle_nan
    {x : Float32}
    (h : readSingle x = .nan) :
    x = 0.0 / 0.0 := by
  obtain ⟨hexponent, hmantissa⟩ := fields_of_read_nan h
  have hbits := eq_packedNaN_of_fields x.toModel.valid hexponent hmantissa
  apply single_eq_of_toBits_eq
  apply UInt32.toBitVec_inj.1
  exact hbits.trans (by decide +kernel)

/-- There is one 64-bit float that is not a number. -/
theorem eq_of_readDouble_nan
    {x : Float}
    (h : readDouble x = .nan) :
    x = 0.0 / 0.0 := by
  obtain ⟨hexponent, hmantissa⟩ := fields_of_read_nan h
  have hbits := eq_packedNaN_of_fields x.toModel.valid hexponent hmantissa
  apply double_eq_of_toBits_eq
  apply UInt64.toBitVec_inj.1
  exact hbits.trans (by decide +kernel)

/-- There is one 32-bit infinity of each sign. -/
theorem eq_of_readSingle_infinite
    {x : Float32}
    {negative : Bool}
    (h : readSingle x = .infinite negative) :
    x = if negative then -1.0 / 0.0 else 1.0 / 0.0 := by
  obtain ⟨hexponent, hmantissa, hsign⟩ := fields_of_read_infinite h
  have hlt := x.toBits.toNat_lt
  rw [Nat.testBit_eq_decide_div_mod_eq] at hsign
  simp only [Format.single] at hexponent hmantissa hsign
  apply single_eq_of_toBits_eq
  apply UInt32.toNat_inj.1
  cases negative with
  | false =>
      have hpositive : ((1.0 / 0.0 : Float32)).toBits.toNat = 0x7f800000 := by
        decide +kernel
      have hsign := of_decide_eq_false hsign
      exact Eq.trans (by omega) hpositive.symm
  | true =>
      have hnegative : ((-1.0 / 0.0 : Float32)).toBits.toNat = 0xff800000 := by
        decide +kernel
      have hsign := of_decide_eq_true hsign
      exact Eq.trans (by omega) hnegative.symm

/-- There is one 64-bit infinity of each sign. -/
theorem eq_of_readDouble_infinite
    {x : Float}
    {negative : Bool}
    (h : readDouble x = .infinite negative) :
    x = if negative then -1.0 / 0.0 else 1.0 / 0.0 := by
  obtain ⟨hexponent, hmantissa, hsign⟩ := fields_of_read_infinite h
  have hlt := x.toBits.toNat_lt
  rw [Nat.testBit_eq_decide_div_mod_eq] at hsign
  simp only [Format.double] at hexponent hmantissa hsign
  apply double_eq_of_toBits_eq
  apply UInt64.toNat_inj.1
  cases negative with
  | false =>
      have hpositive : ((1.0 / 0.0 : Float)).toBits.toNat = 0x7ff0000000000000 := by
        decide +kernel
      have hsign := of_decide_eq_false hsign
      exact Eq.trans (by omega) hpositive.symm
  | true =>
      have hnegative : ((-1.0 / 0.0 : Float)).toBits.toNat = 0xfff0000000000000 := by
        decide +kernel
      have hsign := of_decide_eq_true hsign
      exact Eq.trans (by omega) hnegative.symm

end Number
end SlotFlow
