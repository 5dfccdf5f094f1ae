import PlanarDrive.Decimal.Reader
import PlanarDrive.Proofs.BinaryParts

/-!
# Decimal numbers that are read

A decimal number with few digits and a small exponent is read by one division or multiplication of
two numbers that are exact, any other one from its exact quotient or product. Either way what lies
in the interval around a positive number is read as this number.
-/

namespace PlanarDrive.Binary64

open Decimal (Interval)
open Float.Model Float.Model.UnpackedFloat

def Parts.scaled (n k : Nat) : Parts :=
  ⟨false, n * 2 ^ (52 - n.log2), k + n.log2 - 52⟩

section Scaled

variable {n : Nat} (hn : 0 < n) (hlt : n < 2 ^ 53) (k : Nat)
include hn hlt

theorem log2_scaled : (n * 2 ^ (52 - n.log2)).log2 = 52 := by
  have hlog := (Nat.log2_lt hn.ne').2 hlt
  have hlow := Nat.log2_self_le hn.ne'
  have hhigh := @Nat.lt_log2_self n
  rw [Nat.log2_eq_iff (Nat.mul_pos hn (Nat.two_pow_pos _)).ne']
  constructor
  · calc 2 ^ 52 = 2 ^ n.log2 * 2 ^ (52 - n.log2) := by
          rw [← Nat.pow_add]
          congr 1
          omega
      _ ≤ n * 2 ^ (52 - n.log2) := Nat.mul_le_mul_right _ hlow
  · calc n * 2 ^ (52 - n.log2) < 2 ^ (n.log2 + 1) * 2 ^ (52 - n.log2) :=
          Nat.mul_lt_mul_of_pos_right hhigh (Nat.two_pow_pos _)
      _ = 2 ^ (52 + 1) := by
          rw [← Nat.pow_add]
          congr 1
          omega

theorem canonical_scaled (hk : k ≤ 900) : (Parts.scaled n k).Canonical := by
  have hlog := log2_scaled hn hlt
  have hpos : 0 < n * 2 ^ (52 - n.log2) := Nat.mul_pos hn (Nat.two_pow_pos _)
  rw [Nat.log2_eq_iff hpos.ne'] at hlog
  have hsmall := (Nat.log2_lt hn.ne').2 hlt
  refine ⟨hpos, hlog.2, ?_, ?_, .inr hlog.1⟩ <;> dsimp only [Parts.scaled] <;> omega

theorem full_scaled : 2 ^ 52 ≤ (Parts.scaled n k).significand :=
  ((Nat.log2_eq_iff (canonical_scaled hn hlt 0 (by decide)).pos.ne').1 (log2_scaled hn hlt)).1

theorem scaled_value :
    ((Parts.scaled n k).significand * 2 ^ (Parts.scaled n k).exponent : ℚ) = n * 2 ^ k := by
  have hlog := (Nat.log2_lt hn.ne').2 hlt
  dsimp only [Parts.scaled]
  push_cast
  rw [mul_assoc, ← zpow_natCast, ← zpow_natCast, ← zpow_add₀ (by norm_num)]
  have hexponent : ((52 - n.log2 : Nat) : Int) + ((k : Int) + (n.log2 : Int) - 52) = k := by omega
  rw [hexponent]

end Scaled

theorem ofNat_small {n : Nat} (hn : 0 < n) (hlt : n < 2 ^ 53) :
    UnpackedFloat.ofNat .binary64 n = .finite .positive (Parts.scaled n 0).significand
      (Parts.scaled n 0).exponent (canonical_scaled hn hlt 0 (by decide)).pos := by
  have hlog := (Nat.log2_lt hn.ne').2 hlt
  have hcompare : compare (n : Int) 0 = .gt := by
    rw [Int.compare_eq_gt]
    omega
  have htarget : Format.binary64.targetExponent (totalExponent n 0) = (n.log2 : Int) - 52 := by
    rw [targetExponent_eq, totalExponent]
    omega
  have hshift : (0 - ((n.log2 : Int) - 52)).toNat = 52 - n.log2 := by omega
  have hexponent : (0 : Int) - (52 - n.log2 : Nat) = (0 : Nat) + (n.log2 : Int) - 52 := by omega
  have hround : UnpackedFloat.ofNat .binary64 n = roundWithAccuracy .binary64 .positive
      (Parts.scaled n 0).significand (Parts.scaled n 0).exponent .exact := by
    rw [UnpackedFloat.ofNat, UnpackedFloat.ofInt, UnpackedFloat.normalize, hcompare]
    dsimp only
    rw [Int.toNat_natCast, UnpackedFloat.round, htarget, decreaseExponent]
    dsimp only
    rw [hshift, hexponent, Nat.shiftLeft_eq]
    rfl
  rw [hround]
  refine roundWithAccuracy_eq (canonical_scaled hn hlt 0 (by decide)) Nat.one_pos
    (approximates_exact _) ?_ ?_ _
  · rw [targetExponent_eq, totalExponent]
    dsimp only [Parts.scaled]
    rw [log2_scaled hn hlt]
    omega
  · rw [Nat.cast_one, div_one]
    exact Interval.contains_self _

/-- A power of ten that is computed with, which is an exact number. -/
def powerOfTen (e : Fin 23) : Float :=
  Float.exactlyRepresentablePowersOfTen[e]

theorem powerOfTen_eq : ∀ e : Fin 23, (powerOfTen e).toModel =
    .pack (.finite .positive (Parts.scaled (5 ^ e.val) e).significand
      (Parts.scaled (5 ^ e.val) e).exponent
        (Nat.mul_pos (Nat.pow_pos (by decide)) (Nat.two_pow_pos _))) := by
  decide +kernel

theorem unpack_ofNat_small {n : Nat} (hn : 0 < n) (hlt : n < 2 ^ 53) :
    n.toUInt64.toFloat.toModel.unpack = .finite .positive (Parts.scaled n 0).significand
      (Parts.scaled n 0).exponent (canonical_scaled hn hlt 0 (by decide)).pos := by
  have hnat : n.toUInt64.toNat = n := Nat.mod_eq_of_lt (by omega)
  have hunpack : n.toUInt64.toFloat.toModel.unpack = UnpackedFloat.unpack .binary64
      (UnpackedFloat.pack .binary64 (UnpackedFloat.ofNat .binary64 n.toUInt64.toNat)) := rfl
  rw [hunpack, hnat, ofNat_small hn hlt]
  exact unpack_pack_normal (canonical_scaled hn hlt 0 (by decide)) (full_scaled hn hlt 0)

theorem powerOfFive_lt (e : Fin 23) : 5 ^ e.val < 2 ^ 53 :=
  lt_of_le_of_lt (Nat.pow_le_pow_right (by decide) (show e.val ≤ 22 by omega)) (by decide)

theorem unpack_powerOfTen (e : Fin 23) :
    (powerOfTen e).toModel.unpack = .finite .positive
      (Parts.scaled (5 ^ e.val) e).significand (Parts.scaled (5 ^ e.val) e).exponent
        (Nat.mul_pos (Nat.pow_pos (by decide)) (Nat.two_pow_pos _)) := by
  have hfive : 0 < 5 ^ e.val := Nat.pow_pos (by decide)
  have hlt := powerOfFive_lt e
  rw [powerOfTen_eq e]
  exact unpack_pack_normal (canonical_scaled hfive hlt e (by omega)) (full_scaled hfive hlt e)

theorem powerOfTen_value (e : Fin 23) : ((Parts.scaled (5 ^ e.val) e).significand *
    2 ^ (Parts.scaled (5 ^ e.val) e).exponent : ℚ) = 10 ^ e.val := by
  rw [scaled_value (Nat.pow_pos (by decide)) (powerOfFive_lt e)]
  push_cast
  rw [← mul_pow]
  norm_num

variable {p : Parts}

section Decimal

variable (hp : p.Canonical) {c : Nat} (hc : 0 < c)
include hp hc

/-- Few digits are divided by an exact power of ten, or multiplied by one. -/
theorem small_scientific (hlt : c < 2 ^ 53) (e : Fin 23) :
    ((Interval.around p).Contains (c / 10 ^ e.val) →
      UnpackedFloat.div .binary64 c.toUInt64.toFloat.toModel.unpack (powerOfTen e).toModel.unpack =
        .finite .positive p.significand p.exponent hp.pos) ∧
    ((Interval.around p).Contains (c * 10 ^ e.val) →
      UnpackedFloat.mul .binary64 c.toUInt64.toFloat.toModel.unpack (powerOfTen e).toModel.unpack =
        .finite .positive p.significand p.exponent hp.pos) := by
  have hten := powerOfTen_value e
  have hsmall := scaled_value hc hlt 0
  have hpos : 0 < (Parts.scaled (5 ^ e.val) e).significand :=
    Nat.mul_pos (Nat.pow_pos (by decide)) (Nat.two_pow_pos _)
  rw [pow_zero, mul_one] at hsmall
  rw [unpack_ofNat_small hc hlt, unpack_powerOfTen e]
  refine ⟨fun h => div_finite hp _ hpos ?_, fun h => mul_finite hp _ hpos ?_ ?_⟩
  · rwa [hsmall, hten]
  · exact (full_scaled hc hlt 0).trans (Nat.le_mul_of_pos_right _ hpos)
  · rwa [hsmall, hten]

theorem large_scientific {k : Int} (hlow : -2048 - (c.log2 : Int) ≤ k) (hhigh : k ≤ 2048)
    (h : (Interval.around p).Contains (c * 10 ^ k)) :
    UnpackedFloat.ofScientific .binary64 c k =
      .finite .positive p.significand p.exponent hp.pos := by
  have hlimit : (2 : Int) ^ Format.binary64.exponentBits = 2048 := rfl
  have hbits : Format.binary64.mantissaBits = 53 := rfl
  rw [UnpackedFloat.ofScientific, dif_neg hc.ne', hlimit, if_neg (by omega), if_neg (by omega)]
  by_cases hneg : 0 ≤ k
  · have hten : (10 : ℚ) ^ k = 10 ^ k.toNat := by
      rw [← zpow_natCast, Int.toNat_of_nonneg hneg]
    have hshift : ((c <<< 53 : Nat) * 2 ^ (-53 : Int) : ℚ) = c := by
      rw [Nat.shiftLeft_eq]
      push_cast
      rw [mul_assoc]
      norm_num
    rw [if_pos hneg]
    refine mul_finite hp _ _ ?_ ?_
    · rw [hbits, Nat.shiftLeft_eq]
      calc 2 ^ 52 ≤ c * 2 ^ 53 := by omega
        _ ≤ c * 2 ^ 53 * 10 ^ k.toNat := Nat.le_mul_of_pos_right _ (Nat.pow_pos (by decide))
    · rw [hbits]
      push_cast
      rw [hshift, mul_one, ← hten]
      exact h
  · have hten : (10 : ℚ) ^ k = ((10 : ℚ) ^ (-k).toNat)⁻¹ := by
      rw [← zpow_natCast, Int.toNat_of_nonneg (by omega), zpow_neg, inv_inv]
    rw [if_neg hneg]
    refine div_finite hp _ _ ?_
    rw [zpow_zero, mul_one, mul_one]
    push_cast
    rwa [div_eq_mul_inv, ← hten]

end Decimal

theorem ofScientific_eq {x : Binary64} (hfinite : x.IsFinite)
    (hsign : x.isNegative = false) (hpos : 0 < x.parts.significand) {c : Nat} {k : Int}
    (hc : 0 < c) (hlow : -2048 - (c.log2 : Int) ≤ k) (hhigh : k ≤ 2048)
    (h : (Interval.around x.parts).Contains (c * 10 ^ k)) :
    OfScientific.ofScientific c (k < 0) k.natAbs = x := by
  have hp := canonical_parts hfinite hpos
  suffices hunpacked : ∃ u, (OfScientific.ofScientific c (k < 0) k.natAbs : Binary64) =
      ⟨UInt64.ofBitVec (UnpackedFloat.pack .binary64 u)⟩ ∧
        u = .finite .positive x.parts.significand x.parts.exponent hpos by
    obtain ⟨u, hu, rfl⟩ := hunpacked
    rw [hu]
    exact eq_of_pack hfinite hsign hpos
  have hofFloat : (OfScientific.ofScientific c (k < 0) k.natAbs : Binary64) =
      ofFloat (Float.ofScientific c (k < 0) k.natAbs) := rfl
  rw [hofFloat, Float.ofScientific]
  by_cases hfast : c < 2 ^ 53 ∧ k.natAbs ≤ 22
  · obtain ⟨hdiv, hmul⟩ := small_scientific hp hc hfast.1 ⟨k.natAbs, by omega⟩
    rw [dif_pos hfast]
    by_cases hneg : k < 0
    · have hvalue : (c * 10 ^ k : ℚ) = c / 10 ^ k.natAbs := by
        rw [← zpow_natCast, show (k.natAbs : Int) = -k by omega, zpow_neg, div_inv_eq_mul]
      simp only [hneg, decide_true, if_true]
      exact ⟨_, rfl, hdiv (hvalue ▸ h)⟩
    · have hvalue : (c * 10 ^ k : ℚ) = c * 10 ^ k.natAbs := by
        rw [← zpow_natCast, show (k.natAbs : Int) = k by omega]
      simp only [hneg, decide_false, Bool.false_eq_true, if_false]
      exact ⟨_, rfl, hmul (hvalue ▸ h)⟩
  · have hexponent : (if decide (k < 0) = true then Int.negOfNat k.natAbs
        else Int.ofNat k.natAbs) = k := by
      by_cases hneg : k < 0
      · rw [if_pos (decide_eq_true hneg), Int.negOfNat_eq]
        exact (Int.neg_eq_comm.1 (Int.ofNat_natAbs_of_nonpos hneg.le).symm)
      · rw [if_neg (by simpa using hneg)]
        exact Int.natAbs_of_nonneg (not_lt.1 hneg)
    rw [dif_neg hfast]
    simp only [hexponent]
    exact ⟨_, rfl, large_scientific hp hc hlow hhigh h⟩

/-- Half of the least number is the least that is not rounded to zero, and a power of two bounds all
numbers. -/
theorem bounds_of_contains (hp : p.Canonical) {q : ℚ} (h : (Interval.around p).Contains q) :
    (2 : ℚ) ^ (-1075 : Int) ≤ q ∧ q ≤ 2 ^ (1024 : Int) := by
  obtain ⟨hlow, hhigh, -⟩ := h.near
  have hone : (1 : ℚ) ≤ 2 := by norm_num
  have htwo : (0 : ℚ) < 2 ^ p.exponent := zpow_pos (by norm_num) _
  have hsig : (1 : ℚ) ≤ p.significand := by exact_mod_cast hp.pos
  have hsig' : (p.significand : ℚ) + 1 ≤ 2 ^ 53 := by exact_mod_cast hp.lt
  have hleast := hp.least
  have hmost := hp.most
  constructor
  · calc (2 : ℚ) ^ (-1075 : Int) ≤ 2 ^ (p.exponent - 1) := zpow_le_zpow_right₀ hone (by omega)
      _ = 1 / 2 * 2 ^ p.exponent := by
          rw [zpow_sub_one₀ (by norm_num)]
          ring
      _ ≤ (p.significand - 1 / 2) * 2 ^ p.exponent :=
          mul_le_mul_of_nonneg_right (by linarith) htwo.le
      _ ≤ q := hlow
  · calc q ≤ (p.significand + 1 / 2) * 2 ^ p.exponent := hhigh
      _ ≤ 2 ^ 53 * 2 ^ p.exponent := mul_le_mul_of_nonneg_right (by linarith) htwo.le
      _ = 2 ^ (53 + p.exponent) := by
          rw [zpow_add₀ (by norm_num)]
          norm_num
      _ ≤ 2 ^ (1024 : Int) := zpow_le_zpow_right₀ hone (by omega)

theorem lt_pow_log2 (c : Nat) : c < 10 ^ (c.log2 / 3 + 1) := by
  calc c < 2 ^ (c.log2 + 1) := Nat.lt_log2_self
    _ ≤ 2 ^ (3 * (c.log2 / 3 + 1)) := Nat.pow_le_pow_right (by decide) (by omega)
    _ = 8 ^ (c.log2 / 3 + 1) := Nat.pow_mul ..
    _ ≤ 10 ^ (c.log2 / 3 + 1) := Nat.pow_le_pow_left (by decide) _

/-- Within these bounds no exponent is too small or too large to be computed with. -/
theorem exponent_of_bounds {c : Nat} (hc : 0 < c) {k : Int}
    (hlow : (2 : ℚ) ^ (-1075 : Int) ≤ c * 10 ^ k) (hhigh : (c * 10 ^ k : ℚ) ≤ 2 ^ (1024 : Int)) :
    -400 ≤ k + (c.log2 / 3 : Nat) ∧ k ≤ 400 := by
  have hten : (1 : ℚ) ≤ 10 := by norm_num
  have hpower : (0 : ℚ) < 10 ^ k := zpow_pos (by norm_num) _
  constructor <;> by_contra! hlt
  · have hdigits : (c : ℚ) ≤ 10 ^ ((c.log2 / 3 + 1 : Nat) : Int) := by
      rw [zpow_natCast]
      exact_mod_cast (lt_pow_log2 c).le
    have hsmall : (2 : ℚ) ^ (-1075 : Int) ≤ 10 ^ (-400 : Int) := by
      calc (2 : ℚ) ^ (-1075 : Int) ≤ c * 10 ^ k := hlow
        _ ≤ 10 ^ ((c.log2 / 3 + 1 : Nat) : Int) * 10 ^ k :=
            mul_le_mul_of_nonneg_right hdigits hpower.le
        _ = 10 ^ (((c.log2 / 3 + 1 : Nat) : Int) + k) := (zpow_add₀ (by norm_num) _ _).symm
        _ ≤ 10 ^ (-400 : Int) := zpow_le_zpow_right₀ hten (by push_cast; omega)
    rw [zpow_neg, zpow_neg, inv_le_inv₀ (zpow_pos (by norm_num) _) (zpow_pos (by norm_num) _)]
      at hsmall
    have hnat : 10 ^ 400 ≤ 2 ^ 1075 := by exact_mod_cast hsmall
    exact absurd hnat (by decide +kernel)
  · have hcone : (1 : ℚ) ≤ c := by exact_mod_cast hc
    have hlarge : (10 : ℚ) ^ (401 : Int) ≤ 2 ^ (1024 : Int) := by
      calc (10 : ℚ) ^ (401 : Int) ≤ 10 ^ k := zpow_le_zpow_right₀ hten (by omega)
        _ ≤ c * 10 ^ k := le_mul_of_one_le_left hpower.le hcone
        _ ≤ 2 ^ (1024 : Int) := hhigh
    have hnat : 10 ^ 401 ≤ 2 ^ 1024 := by exact_mod_cast hlarge
    exact absurd hnat (by decide +kernel)

/-- A decimal number in the interval of a positive number is read as this number. -/
theorem nearestTo_eq {x : Binary64} (hfinite : x.IsFinite)
    (hsign : x.isNegative = false) (hpos : 0 < x.parts.significand) {c : Nat} {k : Int}
    (h : (Interval.around x.parts).Contains (c * 10 ^ k)) : Decimal.nearestTo c k = x := by
  obtain ⟨hlow, hhigh⟩ := bounds_of_contains (canonical_parts hfinite hpos) h
  have hc : 0 < c := by
    rcases Nat.eq_zero_or_pos c with rfl | hc
    · rw [Nat.cast_zero, zero_mul] at hlow
      exact absurd hlow (not_le.2 (zpow_pos (by norm_num) _))
    · exact hc
  obtain ⟨htop, hk⟩ := exponent_of_bounds hc hlow hhigh
  have hdiv : (c.log2 : Int) / 3 = (c.log2 / 3 : Nat) := rfl
  rw [Decimal.nearestTo, hdiv, if_neg hc.ne', if_neg (by omega), if_neg (by omega)]
  exact ofScientific_eq hfinite hsign hpos hc (by omega) (by omega) h

end PlanarDrive.Binary64
