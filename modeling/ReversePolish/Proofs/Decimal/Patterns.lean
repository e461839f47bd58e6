import Mathlib
import ReversePolish.Decimal.Binary64

/-! # Doubles and their patterns
A pattern that is no NaN stands for the one double that has it. So the doubles without a sign, with
NaN set aside, are the magnitudes up to that of infinity, and the finite ones those below it. -/
namespace ReversePolish.Binary64
open Float.Model UnpackedFloat

section
variable {b : BitVec Format.binary64.numBits}

theorem toNat_unpackExponent (b : BitVec Format.binary64.numBits) :
    (unpackExponent b).toNat = b.toNat / 2 ^ 52 % 2 ^ 11 := by
  simp [unpackExponent, Nat.shiftRight_eq_div_pow]

theorem toNat_unpackMantissa (b : BitVec Format.binary64.numBits) :
    (unpackMantissa b).toNat = b.toNat % 2 ^ 52 := by
  simp [unpackMantissa]

theorem isFinite_unpack :
    (UnpackedFloat.unpack .binary64 b).isFinite = true ↔ (unpackExponent b).toNat ≠ 2047 := by
  have hones : unpackExponent b ≠ -1#11 ↔ (unpackExponent b).toNat ≠ 2047 :=
    BitVec.toNat_inj.symm.not
  rw [UnpackedFloat.unpack, ← hones]
  split
  · split <;> simp_all [UnpackedFloat.isFinite]
  · split
    · split <;> simp_all [UnpackedFloat.isFinite]
    · simp_all [UnpackedFloat.isFinite]

end

theorem isFinite_iff {x : Float} : x.isFinite = true ↔ magnitude x < infinity := by
  have hlt : x.toBits.toNat < 2 ^ 64 := x.toBits.toNat_lt
  have hfinite : x.isFinite = true ↔ x.toBits.toNat / 2 ^ 52 % 2 ^ 11 ≠ 2047 := by
    rw [← UInt64.toNat_toBitVec, ← toNat_unpackExponent]
    exact isFinite_unpack
  rw [hfinite, magnitude, infinity]
  simp only [Nat.shiftLeft_eq]
  omega

theorem isNaN_of_isFinite {x : Float} (h : x.isFinite = true) : x.isNaN = false := by
  have hunpacked (u : UnpackedFloat) (hu : u.isFinite = true) : u.isNaN = false := by
    cases u with
    | zero | finite => rfl
    | infinity | notANumber => contradiction
  exact hunpacked x.toModel.unpack h

theorem toBits_ofMagnitude {bits : Nat} (h : bits ≤ infinity) :
    (ofMagnitude bits).toBits.toNat = bits := by
  have hle : bits ≤ 2047 * 2 ^ 52 := h
  have hpattern : (UInt64.ofNat bits).toBitVec.toNat = bits := by
    simp
    omega
  have hvalid : Format.binary64.Valid (UInt64.ofNat bits).toBitVec := by
    refine ⟨fun hones hnonzero => absurd (BitVec.eq_of_toNat_eq ?_) hnonzero⟩
    have hexponent := toNat_unpackExponent (UInt64.ofNat bits).toBitVec
    rw [hones, hpattern] at hexponent
    have hfield : bits / 2 ^ 52 % 2 ^ 11 = 2047 := hexponent.symm
    rw [toNat_unpackMantissa, hpattern]
    show bits % 2 ^ 52 = 0
    omega
  have hbits : (ofMagnitude bits).toBits.toBitVec = (UInt64.ofNat bits).toBitVec :=
    pack_unpack_of_valid hvalid
  rw [← UInt64.toNat_toBitVec, hbits, hpattern]

theorem magnitude_ofMagnitude {bits : Nat} (h : bits ≤ infinity) :
    magnitude (ofMagnitude bits) = bits := by
  have hle : bits ≤ 2047 * 2 ^ 52 := h
  rw [magnitude, toBits_ofMagnitude h, Nat.one_shiftLeft]
  omega

theorem isNegative_ofMagnitude {bits : Nat} (h : bits ≤ infinity) :
    isNegative (ofMagnitude bits) = false := by
  have hle : bits ≤ 2047 * 2 ^ 52 := h
  rw [isNegative, toBits_ofMagnitude h, Nat.one_shiftLeft, decide_eq_false_iff_not]
  omega

/-- A double without a sign has its magnitude for its pattern. -/
theorem ofMagnitude_magnitude {x : Float} (h : isNegative x = false) :
    ofMagnitude (magnitude x) = x := by
  have hlt : x.toBits.toNat < 2 ^ 63 := by
    rw [isNegative, Nat.one_shiftLeft, decide_eq_false_iff_not] at h
    omega
  rw [ofMagnitude, magnitude, Nat.one_shiftLeft, Nat.mod_eq_of_lt hlt]
  simp only [UInt64.ofNat_toNat, Float.ofBits_toBits]

end ReversePolish.Binary64
