import PlanarDrive.Binary64.Parts
import PlanarDrive.Proofs.BinaryRounding
import PlanarDrive.Proofs.StoredValues

/-!
# Parts and bits of a number

A finite number has parts within the bounds of the format, and its bits are its sign and the packed
parts. What is packed with all bits of its significand is unpacked again.
-/

namespace PlanarDrive.Binary64

open Float.Model Float.Model.UnpackedFloat

theorem isNegative_iff {x : Binary64} : x.isNegative = true ↔ 2 ^ 63 ≤ x.bits.toNat := by
  have hlt := x.bits.toNat_lt
  have hbit : (x.bits &&& signBit).toNat = (x.bits.toNat.testBit 63).toNat * 2 ^ 63 := by
    rw [UInt64.toNat_and, ← Nat.and_two_pow]
    rfl
  rw [isNegative, bne_iff_ne, Ne, ← UInt64.toNat_inj, hbit, Nat.testBit_eq_decide_div_mod_eq]
  have hhigh : x.bits.toNat / 2 ^ 63 % 2 = 1 ↔ 2 ^ 63 ≤ x.bits.toNat := by omega
  simpa using hhigh

theorem toNat_neg_of_isNegative {x : Binary64} (h : x.isNegative = true) :
    (-x).bits.toNat + 2 ^ 63 = x.bits.toNat := by
  rw [isNegative_iff] at h
  have hlt := x.bits.toNat_lt
  obtain ⟨low, hlow⟩ := Nat.exists_eq_add_of_le h
  have hsmall : low < 2 ^ 63 := by omega
  have hneg : (-x).bits.toNat = x.bits.toNat ^^^ 2 ^ 63 := UInt64.toNat_xor _ _
  have hor : 2 ^ 63 + low = 2 ^ 63 ||| low := by
    simpa using Nat.two_pow_add_eq_or_of_lt hsmall 1
  have hxor : (2 ^ 63 ||| low) ^^^ 2 ^ 63 = low := by
    apply Nat.eq_of_testBit_eq
    intro i
    rw [Nat.testBit_xor, Nat.testBit_or, Nat.testBit_two_pow]
    by_cases hi : 63 = i
    · subst hi
      simp [Nat.testBit_lt_two_pow hsmall]
    · simp [hi]
  rw [hneg, hlow, hor, hxor]
  omega

theorem toNat_packComponents (e : BitVec 11) (m : BitVec 52) :
    (packComponents .binary64 .positive e m).toNat = e.toNat * 2 ^ 52 + m.toNat := by
  have happend : (packComponents .binary64 .positive e m).toNat =
      (((0#1).toNat <<< 11 ||| e.toNat) <<< 52 ||| m.toNat) := by
    rw [packComponents, BitVec.toNat_append, BitVec.toNat_append]
    rfl
  rw [happend, ← Nat.shiftLeft_add_eq_or_of_lt m.isLt, Nat.shiftLeft_eq]
  simp

def IsFinite (x : Binary64) : Prop :=
  x.bits.toNat / 2 ^ 52 % 2 ^ 11 < 2047

theorem isFinite_of_isNaN_isInfinite {x : Binary64} (hnan : x.isNaN = false)
    (hinf : x.isInfinite = false) : x.IsFinite := by
  unfold IsFinite
  by_contra! hle
  have hexponent : @unpackExponent .binary64 x.bits.toBitVec = -1#11 := by
    apply BitVec.eq_of_toNat_eq
    have hmod : x.bits.toNat / 2 ^ 52 % 2 ^ 11 = 2047 := by omega
    simpa [unpackExponent, Nat.shiftRight_eq_div_pow] using hmod
  have hunpack : UnpackedFloat.unpack .binary64 x.bits.toBitVec = .notANumber ∨
      (UnpackedFloat.unpack .binary64 x.bits.toBitVec).isInf = true := by
    unfold UnpackedFloat.unpack
    simp only [hexponent, if_true]
    split
    · exact .inr rfl
    · exact .inl rfl
  rcases hunpack with hunpack | hunpack
  · have hnone : x.isNaN = (UnpackedFloat.unpack .binary64 (UnpackedFloat.pack .binary64
        (UnpackedFloat.unpack .binary64 x.bits.toBitVec))).isNaN := rfl
    rw [hnone, hunpack] at hnan
    exact absurd hnan (by decide)
  · have hsame : x.isInfinite = (UnpackedFloat.unpack .binary64 x.bits.toBitVec).isInf :=
      isInf_unpack_pack x.bits.toBitVec
    rw [hsame, hunpack] at hinf
    cases hinf

section Finite

variable {x : Binary64} (h : x.IsFinite)

theorem parts_of_biased_eq (hzero : x.bits.toNat / 2 ^ 52 % 2 ^ 11 = 0) :
    x.parts = ⟨x.isNegative, x.bits.toNat % 2 ^ 52, -1074⟩ :=
  if_pos hzero

theorem parts_of_biased_ne (hzero : x.bits.toNat / 2 ^ 52 % 2 ^ 11 ≠ 0) :
    x.parts = ⟨x.isNegative, x.bits.toNat % 2 ^ 52 + 2 ^ 52,
      (x.bits.toNat / 2 ^ 52 % 2 ^ 11 : Nat) - 1075⟩ :=
  if_neg hzero

include h

theorem canonical_parts (hpos : 0 < x.parts.significand) : x.parts.Canonical := by
  have hbiased : x.bits.toNat / 2 ^ 52 % 2 ^ 11 < 2047 := h
  have hfraction : x.bits.toNat % 2 ^ 52 < 2 ^ 52 := Nat.mod_lt _ (by decide)
  by_cases hzero : x.bits.toNat / 2 ^ 52 % 2 ^ 11 = 0
  · rw [parts_of_biased_eq hzero] at hpos ⊢
    exact ⟨hpos, by dsimp only; omega, le_rfl, by dsimp only; omega, .inl rfl⟩
  · rw [parts_of_biased_ne hzero] at hpos ⊢
    exact ⟨hpos, by dsimp only; omega, by dsimp only; omega, by dsimp only; omega,
      .inr (by dsimp only; omega)⟩

/-- The bits of a finite number, but for its sign, are those of its parts. -/
theorem toNat_pack_parts (hpos : 0 < x.parts.significand) :
    (UnpackedFloat.pack .binary64
      (.finite .positive x.parts.significand x.parts.exponent hpos)).toNat =
        x.bits.toNat % 2 ^ 63 := by
  have hbiased : x.bits.toNat / 2 ^ 52 % 2 ^ 11 < 2047 := h
  have hfraction : x.bits.toNat % 2 ^ 52 < 2 ^ 52 := Nat.mod_lt _ (by decide)
  have hbias (e : Int) : (e + (Format.binary64.exponentBias : Int) +
      (Format.binary64.mantissaBitsWithoutImplicit : Int)) = e + 1075 := by
    rw [show (Format.binary64.exponentBias : Int) = 1023 from rfl,
      show (Format.binary64.mantissaBitsWithoutImplicit : Int) = 52 from rfl]
    omega
  have hsplit : x.bits.toNat % 2 ^ 63 =
      (x.bits.toNat / 2 ^ 52 % 2 ^ 11) * 2 ^ 52 + x.bits.toNat % 2 ^ 52 := by omega
  rw [hsplit]
  unfold UnpackedFloat.pack
  simp only [hbias]
  by_cases hzero : x.bits.toNat / 2 ^ 52 % 2 ^ 11 = 0
  · have hparts := parts_of_biased_eq hzero
    have hlog : (x.bits.toNat % 2 ^ 52).log2 < 52 := by
      rw [hparts] at hpos
      exact (Nat.log2_lt hpos.ne').2 hfraction
    simp only [hparts, hzero]
    rw [if_neg (by omega), if_neg (by rw [show Format.binary64.mantissaBits = 53 from rfl]; omega),
      toNat_packComponents]
    simp
  · have hparts := parts_of_biased_ne hzero
    have hlog : (x.bits.toNat % 2 ^ 52 + 2 ^ 52).log2 = 52 := by
      rw [Nat.log2_eq_iff (by omega)]
      omega
    have hexponent : ((x.bits.toNat / 2 ^ 52 % 2 ^ 11 : Nat) - 1075 + 1075 : Int).toNat =
      x.bits.toNat / 2 ^ 52 % 2 ^ 11 := by omega
    simp only [hparts, hexponent, hlog]
    rw [if_neg (by omega), if_pos (show 52 + 1 = Format.binary64.mantissaBits from rfl),
      toNat_packComponents, BitVec.toNat_ofNat, BitVec.toNat_ofNat]
    omega

theorem eq_of_pack (hsign : x.isNegative = false) (hpos : 0 < x.parts.significand) :
    (⟨UInt64.ofBitVec (UnpackedFloat.pack .binary64
      (.finite .positive x.parts.significand x.parts.exponent hpos))⟩ : Binary64) = x := by
  have hlow : x.bits.toNat < 2 ^ 63 := by
    by_contra! hle
    rw [isNegative_iff.2 hle] at hsign
    cases hsign
  have hbits := toNat_pack_parts h hpos
  rw [Nat.mod_eq_of_lt hlow] at hbits
  exact congrArg mk (UInt64.toNat_inj.1 hbits)

end Finite

variable {p : Parts}

theorem log2_of_full (hp : p.Canonical) (hfull : 2 ^ 52 ≤ p.significand) :
    p.significand.log2 = 52 :=
  (Nat.log2_eq_iff hp.pos.ne').2 ⟨hfull, hp.lt⟩

theorem unpackSign_packComponents (e : BitVec 11) (m : BitVec 52) :
    @unpackSign .binary64 (packComponents .binary64 .positive e m) = 0#1 := by
  apply BitVec.eq_of_toNat_eq
  have hlt := m.isLt
  have hlt' := e.isLt
  have htoNat : (@unpackSign .binary64 (packComponents .binary64 .positive e m)).toNat =
      (packComponents .binary64 .positive e m).toNat / 2 ^ 63 % 2 := by
    simp [unpackSign, Nat.shiftRight_eq_div_pow]
  rw [htoNat, toNat_packComponents, show (0#1).toNat = 0 from rfl]
  omega

/-- What is packed is unpacked, where the significand has all its bits. -/
theorem unpack_pack_normal (hp : p.Canonical) (hfull : 2 ^ 52 ≤ p.significand) :
    UnpackedFloat.unpack .binary64 (UnpackedFloat.pack .binary64
      (.finite .positive p.significand p.exponent hp.pos)) =
        .finite .positive p.significand p.exponent hp.pos := by
  have hlog := log2_of_full hp hfull
  have hleast := hp.least
  have hmost := hp.most
  have hlt := hp.lt
  have hbias : (p.exponent + (Format.binary64.exponentBias : Int) +
      (Format.binary64.mantissaBitsWithoutImplicit : Int)).toNat = (p.exponent + 1075).toNat := by
    rw [show (Format.binary64.exponentBias : Int) = 1023 from rfl,
      show (Format.binary64.mantissaBitsWithoutImplicit : Int) = 52 from rfl]
    omega
  have hexponent : (BitVec.ofNat 11 (p.exponent + 1075).toNat).toNat =
      (p.exponent + 1075).toNat := by
    rw [BitVec.toNat_ofNat]
    omega
  have hpack : UnpackedFloat.pack .binary64 (.finite .positive p.significand p.exponent hp.pos) =
      packComponents .binary64 .positive (BitVec.ofNat 11 (p.exponent + 1075).toNat)
        (BitVec.ofNat 52 p.significand) := by
    unfold UnpackedFloat.pack
    simp only [hbias, hlog]
    rw [if_neg (by omega), if_pos (show 52 + 1 = Format.binary64.mantissaBits from rfl)]
  have hsome : BitVec.ofNat 11 (p.exponent + 1075).toNat ≠ 0#11 := by
    intro h
    rw [h] at hexponent
    simp at hexponent
    omega
  have hnotall : BitVec.ofNat 11 (p.exponent + 1075).toNat ≠ -1#11 := by
    intro h
    rw [h] at hexponent
    simp at hexponent
    omega
  rw [hpack]
  unfold UnpackedFloat.unpack
  simp only [unpackExponent_packComponents, unpackMantissa_packComponents,
    unpackSign_packComponents]
  rw [if_neg hnotall, if_neg hsome]
  have hmantissa : (1#1 ++ BitVec.ofNat 52 p.significand).toNat = p.significand := by
    have happend : (1#1 ++ BitVec.ofNat 52 p.significand).toNat =
        1 <<< 52 ||| (BitVec.ofNat 52 p.significand).toNat := rfl
    rw [happend, ← Nat.shiftLeft_add_eq_or_of_lt (BitVec.ofNat 52 p.significand).isLt,
      BitVec.toNat_ofNat]
    omega
  have hunbias : ((p.exponent + 1075).toNat : Int) -
      ((Format.binary64.exponentBias : Int) + (52 : Nat)) = p.exponent := by
    rw [show (Format.binary64.exponentBias : Int) = 1023 from rfl]
    omega
  simp only [hmantissa, hexponent, hunbias]
  rfl

end PlanarDrive.Binary64
