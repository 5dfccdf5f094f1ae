import Mathlib
import PlanarDrive.Decimal.Numeral

/-!
# What is rounded to a number

A result is computed with more bits than a number has, and with two more that tell where the rest
lies. Shortened to 53 bits it is rounded to the nearest number, a half to the even one. So what lies
in the interval around the parts of a number is rounded to these parts: no matter how many bits it
was given with, and also where it lies below a power of two and is rounded up to it.
-/

namespace PlanarDrive

theorem roundQuotient_eq {n d r : Nat} (hd : 0 < d) (hlow : 2 * (d * r) ≤ 2 * n + d)
    (hhigh : 2 * n ≤ 2 * (d * r) + d)
    (hties : r % 2 = 0 ∨ 2 * (d * r) < 2 * n + d ∧ 2 * n < 2 * (d * r) + d) :
    roundQuotient n d = r := by
  have hn := Nat.div_add_mod n d
  have hmod := Nat.mod_lt n hd
  have hle : r ≤ n / d + 1 := by
    by_contra! hlt
    have hmul := Nat.mul_le_mul_left d (show n / d + 2 ≤ r from hlt)
    rw [Nat.mul_add] at hmul
    omega
  have hge : n / d ≤ r := by
    by_contra! hlt
    have hmul := Nat.mul_le_mul_left d (show r + 1 ≤ n / d from hlt)
    rw [Nat.mul_add] at hmul
    omega
  obtain rfl | rfl : r = n / d ∨ r = n / d + 1 := by omega
  · simp only [roundQuotient]
    split
    · rfl
    · split
      · omega
      · rw [if_pos (by omega)]
  · rw [Nat.mul_add] at hlow hhigh hties
    simp only [roundQuotient]
    split
    · omega
    · split
      · rfl
      · rw [if_neg (by omega)]

theorem roundQuotient_near (n : Nat) {d : Nat} (hd : 0 < d) :
    (n / d - 1 / 2 : ℚ) ≤ roundQuotient n d ∧ (roundQuotient n d : ℚ) ≤ n / d + 1 / 2 := by
  have hdpos : (0 : ℚ) < d := by exact_mod_cast hd
  have hlow : (2 * n : ℚ) ≤ 2 * (d * roundQuotient n d) + d := by
    exact_mod_cast le_roundQuotient n d hd
  have hhigh : (2 * (d * roundQuotient n d) : ℚ) ≤ 2 * n + d := by
    exact_mod_cast roundQuotient_le n d hd
  have hcancel : (n / d : ℚ) * d = n := div_mul_cancel₀ _ hdpos.ne'
  constructor <;> nlinarith

open Binary64 (Parts)

namespace Decimal.Interval

structure Contains (i : Interval) (q : ℚ) : Prop where
  low : (i.value - i.below) * 2 ^ i.scale ≤ q
  high : q ≤ (i.value + i.above) * 2 ^ i.scale
  ends : i.closed = true ∨
    (i.value - i.below) * 2 ^ i.scale < q ∧ q < (i.value + i.above) * 2 ^ i.scale

theorem around_scale (p : Parts) : (2 : ℚ) ^ (around p).scale = 2 ^ p.exponent / 4 := by
  rw [around, zpow_sub₀ (by norm_num)]
  norm_num

theorem around_value (p : Parts) : ((around p).value : ℚ) = 4 * p.significand := by
  simp [around]

theorem around_below (p : Parts) :
    (around p).below = 2 ∨ (around p).below = 1 ∧ p.significand = 2 ^ 52 ∧ -1074 < p.exponent := by
  by_cases h : p.significand = 2 ^ 52 ∧ -1074 < p.exponent
  · exact .inr ⟨if_pos h, h⟩
  · exact .inl (if_neg h)

variable {p : Parts} {q : ℚ}

theorem contains_of_lt (hlow : (p.significand - (around p).below / 4 : ℚ) * 2 ^ p.exponent < q)
    (hhigh : q < (p.significand + 1 / 2 : ℚ) * 2 ^ p.exponent) : (around p).Contains q := by
  have hlow' : ((around p).value - (around p).below : ℚ) * 2 ^ (around p).scale < q := by
    rw [around_scale, around_value]
    linarith
  have hhigh' : q < ((around p).value + (around p).above : ℚ) * 2 ^ (around p).scale := by
    rw [around_scale, around_value, show ((around p).above : ℚ) = 2 from rfl]
    linarith
  exact ⟨hlow'.le, hhigh'.le, .inr ⟨hlow', hhigh'⟩⟩

theorem contains_self (p : Parts) : (around p).Contains (p.significand * 2 ^ p.exponent) := by
  have htwo : (0 : ℚ) < 2 ^ p.exponent := zpow_pos (by norm_num) _
  have hbelow : (0 : ℚ) < (around p).below := by
    rcases around_below p with h | ⟨h, -⟩ <;> rw [h] <;> norm_num
  apply contains_of_lt <;> nlinarith

namespace Contains

/-- What rounds to a number is no more than half a unit of its last place away. -/
theorem near (h : (around p).Contains q) :
    (p.significand - 1 / 2 : ℚ) * 2 ^ p.exponent ≤ q ∧
      q ≤ (p.significand + 1 / 2 : ℚ) * 2 ^ p.exponent ∧
      (p.significand % 2 = 0 ∨ (p.significand - 1 / 2 : ℚ) * 2 ^ p.exponent < q ∧
        q < (p.significand + 1 / 2 : ℚ) * 2 ^ p.exponent) := by
  have htwo : (0 : ℚ) < 2 ^ p.exponent := zpow_pos (by norm_num) _
  have hbelow : ((around p).below : ℚ) ≤ 2 := by
    rcases around_below p with h | ⟨h, -⟩ <;> rw [h] <;> norm_num
  have hclosed : (around p).closed = true → p.significand % 2 = 0 := by
    simp [around]
  obtain ⟨hlow, hhigh, hends⟩ := h
  rw [around_scale, around_value] at hlow hhigh hends
  rw [show ((around p).above : ℚ) = 2 from rfl] at hhigh hends
  refine ⟨by nlinarith, by linarith, hends.imp hclosed fun hstrict => ?_⟩
  exact ⟨by nlinarith [hstrict.1], by linarith [hstrict.2]⟩

/-- Below a power of two it is no more than a quarter away. -/
theorem nearer (h : (around p).Contains q) (hp : p.significand = 2 ^ 52) (he : -1074 < p.exponent) :
    (2 ^ 52 - 1 / 4 : ℚ) * 2 ^ p.exponent ≤ q := by
  have hlow := h.low
  have hbelow : (around p).below = 1 := if_pos ⟨hp, he⟩
  rw [hbelow, around_value, around_scale, hp] at hlow
  push_cast at hlow
  linarith

end Contains

end Decimal.Interval

namespace Binary64

open Decimal (Interval)
open Float.Model Float.Model.UnpackedFloat

/-- The mantissa is the whole part of `n / d`; one bit tells whether the rest is a half or more, the
other whether it is neither nothing nor a half. -/
structure Approximates (em : ExtendedMantissa) (n d : Nat) : Prop where
  mantissa : em.mantissa = n / d
  round : em.roundBit = true ↔ d ≤ 2 * (n % d)
  sticky : em.stickyBit = true ↔ n % d ≠ 0 ∧ 2 * (n % d) ≠ d

theorem approximates_exact (m : Nat) : Approximates (.ofMantissaAndAccuracy m .exact) m 1 := by
  constructor <;> simp [ExtendedMantissa.ofMantissaAndAccuracy, Nat.mod_one]

theorem approximates_fraction (n : Nat) {d : Nat} (hd : 0 < d) :
    Approximates (.ofMantissaAndAccuracy (n / d) (accuracyOfFraction (n % d) d)) n d := by
  unfold accuracyOfFraction
  by_cases hzero : n % d = 0
  · rw [if_pos hzero]
    constructor <;> simp [ExtendedMantissa.ofMantissaAndAccuracy, hzero]
    omega
  · rw [if_neg hzero]
    rcases hcompare : compare (2 * (n % d)) d with _ | _ | _
    · have hlt := Nat.compare_eq_lt.1 hcompare
      constructor <;> simp [ExtendedMantissa.ofMantissaAndAccuracy, hzero] <;> omega
    · have heq := Nat.compare_eq_eq.1 hcompare
      constructor <;> simp [ExtendedMantissa.ofMantissaAndAccuracy, hzero] <;> omega
    · have hgt := Nat.compare_eq_gt.1 hcompare
      constructor <;> simp [ExtendedMantissa.ofMantissaAndAccuracy, hzero] <;> omega

namespace Approximates

variable {em : ExtendedMantissa} {n d : Nat}

theorem shiftRightOne (h : Approximates em n d) (hd : 0 < d) :
    Approximates em.shiftRightOne n (d * 2) := by
  have hmod := Nat.mod_lt n hd
  have hround := h.round
  have hsticky := h.sticky
  have hsplit : n % (d * 2) = n % d + d * (n / d % 2) := Nat.mod_mul
  have hbit := Nat.mod_two_eq_zero_or_one (n / d)
  refine ⟨?_, ?_, ?_⟩
  · rw [ExtendedMantissa.shiftRightOne, h.mantissa, Nat.div_div_eq_div_mul]
  · simp only [ExtendedMantissa.shiftRightOne, h.mantissa, hsplit, bne_iff_ne]
    rcases hbit with hbit | hbit <;> rw [hbit] <;> omega
  · simp only [ExtendedMantissa.shiftRightOne, hsplit, Bool.or_eq_true, hround, hsticky]
    rcases hbit with hbit | hbit <;> rw [hbit] <;> omega

theorem shiftRight (h : Approximates em n d) (hd : 0 < d) (k : Nat) :
    Approximates (em >>> k) n (d * 2 ^ k) := by
  induction k with
  | zero =>
    rw [Nat.pow_zero, Nat.mul_one]
    exact h
  | succ k ih =>
    rw [Nat.pow_succ, ← Nat.mul_assoc]
    exact ih.shiftRightOne (Nat.mul_pos hd (Nat.two_pow_pos k))

/-- Rounding by the two bits is rounding the quotient. -/
theorem roundedMantissa (h : Approximates em n d) : em.roundedMantissa = roundQuotient n d := by
  obtain ⟨mantissa, round, sticky⟩ := em
  obtain ⟨rfl, hround, hsticky⟩ := h
  dsimp only at hround hsticky
  unfold ExtendedMantissa.roundedMantissa
  simp only [roundQuotient]
  cases round <;> cases sticky <;>
    simp only [Bool.false_eq_true, false_iff, true_iff] at hround hsticky <;>
    dsimp only [ExtendedMantissa.accuracy, Accuracy.roundToNearestEven]
  · rw [if_pos (by omega)]
  · rw [if_pos (by omega)]
  · rw [if_neg (by omega), if_neg (by omega)]
    split <;> omega
  · rw [if_neg (by omega), if_pos (by omega)]

end Approximates

structure Parts.Canonical (p : Parts) : Prop where
  pos : 0 < p.significand
  lt : p.significand < 2 ^ 53
  least : -1074 ≤ p.exponent
  most : p.exponent ≤ 971
  full : p.exponent = -1074 ∨ 2 ^ 52 ≤ p.significand

/-- In units of the power of two the whole part of the number has no more than 53 bits, and no fewer
unless the power is the least one. -/
structure Fits (q : ℚ) (exponent : Int) : Prop where
  least : -1074 ≤ exponent
  lt : q < 2 ^ (exponent + 53)
  full : exponent = -1074 ∨ (2 : ℚ) ^ (exponent + 52) ≤ q

theorem targetExponent_eq (t : Int) :
    Format.binary64.targetExponent t = max (t - 53) (-1074) :=
  rfl

theorem fits_targetExponent {m n d : Nat} (hd : 0 < d) {e : Int} (hm : m = n / d)
    (he : e ≤ Format.binary64.targetExponent (totalExponent m e)) :
    Fits (n / d * 2 ^ e) (Format.binary64.targetExponent (totalExponent m e)) := by
  have htwo : (0 : ℚ) < 2 ^ e := zpow_pos (by norm_num) e
  have hdpos : (0 : ℚ) < d := by exact_mod_cast hd
  rw [targetExponent_eq, totalExponent] at he ⊢
  refine ⟨le_max_right _ _, ?_, ?_⟩
  · have hlt : n < 2 ^ (m.log2 + 1) * d := by
      rw [← Nat.div_lt_iff_lt_mul hd, ← hm]
      exact Nat.lt_log2_self
    have hquotient : (n / d : ℚ) < 2 ^ ((m.log2 : Int) + 1) := by
      rw [div_lt_iff₀ hdpos]
      exact_mod_cast hlt
    calc (n / d * 2 ^ e : ℚ) < 2 ^ ((m.log2 : Int) + 1) * 2 ^ e :=
          mul_lt_mul_of_pos_right hquotient htwo
      _ = 2 ^ ((m.log2 : Int) + 1 + e) := (zpow_add₀ (by norm_num) _ _).symm
      _ ≤ 2 ^ (max ((m.log2 : Int) + 1 + e - 53) (-1074) + 53) :=
          zpow_le_zpow_right₀ (by norm_num) (by omega)
  · rcases le_total ((m.log2 : Int) + 1 + e - 53) (-1074) with hle | hle
    · exact .inl (max_eq_right hle)
    · right
      rw [max_eq_left hle] at he ⊢
      have hm0 : m ≠ 0 := by
        rintro rfl
        simp at he
        omega
      have hle : 2 ^ m.log2 * d ≤ n := by
        rw [← Nat.le_div_iff_mul_le hd, ← hm]
        exact Nat.log2_self_le hm0
      have hquotient : (2 : ℚ) ^ (m.log2 : Int) ≤ n / d := by
        rw [le_div_iff₀ hdpos]
        exact_mod_cast hle
      calc (2 : ℚ) ^ ((m.log2 : Int) + 1 + e - 53 + 52) = 2 ^ (m.log2 : Int) * 2 ^ e := by
            rw [← zpow_add₀ (by norm_num)]
            congr 1
            ring
        _ ≤ n / d * 2 ^ e := mul_le_mul_of_nonneg_right hquotient htwo.le

variable {p : Parts} {q : ℚ}

/-- The units are those of the last place, or just below a power of two half of them. -/
theorem exponent_of_contains (hp : p.Canonical) (h : (Interval.around p).Contains q) {e : Int}
    (he : Fits q e) :
    e = p.exponent ∨ e = p.exponent - 1 ∧ p.significand = 2 ^ 52 ∧ -1074 < p.exponent := by
  obtain ⟨hlow, hhigh, -⟩ := h.near
  have hone : (1 : ℚ) < 2 := by norm_num
  have htwo : (0 : ℚ) < 2 ^ p.exponent := zpow_pos (by norm_num) _
  have hpow (k : Int) : (2 : ℚ) ^ (p.exponent + k) = 2 ^ k * 2 ^ p.exponent := by
    rw [zpow_add₀ (by norm_num), mul_comm]
  rcases lt_trichotomy e p.exponent with hlt | heq | hgt
  · right
    have hleast : -1074 < p.exponent := lt_of_le_of_lt he.least hlt
    have hnormal : 2 ^ 52 ≤ p.significand := hp.full.resolve_left (by omega)
    have hpower : p.significand = 2 ^ 52 := by
      by_contra hne
      have hsig : ((2 ^ 52 + 1 : ℕ) : ℚ) ≤ p.significand := by
        exact_mod_cast (show 2 ^ 52 + 1 ≤ p.significand by omega)
      have hq : q < 2 ^ (p.exponent + 52) :=
        he.lt.trans_le (zpow_le_zpow_right₀ hone.le (by omega))
      rw [hpow, zpow_ofNat] at hq
      push_cast at hsig
      have hle : (2 ^ 52 : ℚ) * 2 ^ p.exponent ≤ (p.significand - 1 / 2) * 2 ^ p.exponent :=
        mul_le_mul_of_nonneg_right (by linarith) htwo.le
      linarith
    have hq : (2 : ℚ) ^ (p.exponent + 51) < 2 ^ (e + 53) := by
      refine lt_of_le_of_lt ?_ he.lt
      have hnear := h.nearer hpower hleast
      rw [hpow]
      norm_num at hnear ⊢
      linarith
    have hexponent := (zpow_lt_zpow_iff_right₀ hone).1 hq
    exact ⟨by omega, hpower, hleast⟩
  · exact .inl heq
  · have hq : (2 : ℚ) ^ (e + 52) < 2 ^ (p.exponent + 53) := by
      have hfull := he.full.resolve_left (by have := hp.least; omega)
      refine lt_of_le_of_lt (hfull.trans hhigh) ?_
      have hsig : (p.significand : ℚ) + 1 ≤ 2 ^ 53 := by exact_mod_cast hp.lt
      rw [hpow]
      norm_num at hsig ⊢
      nlinarith
    have hexponent := (zpow_lt_zpow_iff_right₀ hone).1 hq
    omega

theorem roundQuotient_of_contains {n d : Nat} (hd : 0 < d)
    (h : (Interval.around p).Contains (n / d * 2 ^ p.exponent)) :
    roundQuotient n d = p.significand := by
  obtain ⟨hlow, hhigh, hends⟩ := h.near
  have htwo : (0 : ℚ) < 2 ^ p.exponent := zpow_pos (by norm_num) _
  have hdpos : (0 : ℚ) < d := by exact_mod_cast hd
  rw [mul_le_mul_iff_left₀ htwo] at hlow hhigh
  rw [mul_lt_mul_iff_left₀ htwo, mul_lt_mul_iff_left₀ htwo] at hends
  rw [le_div_iff₀ hdpos] at hlow
  rw [div_le_iff₀ hdpos] at hhigh
  rw [lt_div_iff₀ hdpos, div_lt_iff₀ hdpos] at hends
  have hlow' : (2 * (d * p.significand) : ℚ) ≤ 2 * n + d := by linarith
  have hhigh' : (2 * n : ℚ) ≤ 2 * (d * p.significand) + d := by linarith
  refine roundQuotient_eq hd (by exact_mod_cast hlow') (by exact_mod_cast hhigh')
    (hends.imp_right fun hstrict => ⟨?_, ?_⟩)
  · have hlt : (2 * (d * p.significand) : ℚ) < 2 * n + d := by linarith [hstrict.1]
    exact_mod_cast hlt
  · have hlt : (2 * n : ℚ) < 2 * (d * p.significand) + d := by linarith [hstrict.2]
    exact_mod_cast hlt

/-- Below a power of two, in half the units, the significand is rounded up to one bit too many. -/
theorem roundQuotient_below {n d : Nat} (hd : 0 < d) (hp : p.significand = 2 ^ 52)
    (he : -1074 < p.exponent) (h : (Interval.around p).Contains (n / d * 2 ^ (p.exponent - 1)))
    (hlt : (n / d * 2 ^ (p.exponent - 1) : ℚ) < 2 ^ (p.exponent - 1 + 53)) :
    roundQuotient n d = 2 ^ 53 := by
  have hlow := h.nearer hp he
  have hdpos : (0 : ℚ) < d := by exact_mod_cast hd
  have htwo : (0 : ℚ) < 2 ^ (p.exponent - 1) := zpow_pos (by norm_num) _
  have hunit : (2 : ℚ) ^ p.exponent = 2 * 2 ^ (p.exponent - 1) := by
    rw [zpow_sub_one₀ (by norm_num)]
    ring
  rw [hunit, ← mul_assoc, mul_le_mul_iff_left₀ htwo, le_div_iff₀ hdpos] at hlow
  rw [zpow_add₀ (by norm_num), mul_comm (2 ^ (p.exponent - 1) : ℚ), mul_lt_mul_iff_left₀ htwo,
    div_lt_iff₀ hdpos, zpow_ofNat] at hlt
  have hlow' : (2 * (d * 2 ^ 53) : ℚ) ≤ 2 * n + d := by linarith
  have hlt' : n < 2 ^ 53 * d := by exact_mod_cast hlt
  exact roundQuotient_eq hd (by exact_mod_cast hlow') (by omega) (.inl rfl)

theorem shiftToTargetExponent_of_le {m : Nat} {e : Int} (a : Accuracy)
    (he : e ≤ Format.binary64.targetExponent (totalExponent m e)) :
    shiftToTargetExponent .binary64 m e a = (ExtendedMantissa.ofMantissaAndAccuracy m a >>>
      (Format.binary64.targetExponent (totalExponent m e) - e).toNat,
        Format.binary64.targetExponent (totalExponent m e)) := by
  rw [shiftToTargetExponent, shiftToExponent]
  congr 1
  omega

theorem shiftToTargetExponent_of_ge {m : Nat} {e : Int} (a : Accuracy)
    (he : Format.binary64.targetExponent (totalExponent m e) ≤ e) :
    shiftToTargetExponent .binary64 m e a = (.ofMantissaAndAccuracy m a, e) := by
  have hnone : (Format.binary64.targetExponent (totalExponent m e) - e).toNat = 0 := by omega
  rw [shiftToTargetExponent, shiftToExponent, hnone]
  simp only [Int.natCast_zero, Int.add_zero]
  rfl

/-- What lies in the interval around the parts of a number is rounded to these parts. -/
theorem roundWithAccuracy_eq (hp : p.Canonical) {m n d : Nat} {e : Int} {a : Accuracy} (hd : 0 < d)
    (ha : Approximates (.ofMantissaAndAccuracy m a) n d)
    (he : e ≤ Format.binary64.targetExponent (totalExponent m e))
    (h : (Interval.around p).Contains (n / d * 2 ^ e)) (s : Sign) :
    roundWithAccuracy .binary64 s m e a = .finite s p.significand p.exponent hp.pos := by
  have hm : m = n / d := by
    rw [← ha.mantissa]
    cases a with
    | exact => rfl
    | inexact o => cases o <;> rfl
  have hfits := fits_targetExponent hd hm he
  have hexponent := exponent_of_contains hp h hfits
  have hfirst := shiftToTargetExponent_of_le a he
  have hshifted := ha.shiftRight hd (Format.binary64.targetExponent (totalExponent m e) - e).toNat
  generalize Format.binary64.targetExponent (totalExponent m e) = t at *
  have hvalue : (n / d * 2 ^ e : ℚ) = n / (d * 2 ^ (t - e).toNat : Nat) * 2 ^ t := by
    have hsplit : (2 : ℚ) ^ t = 2 ^ (t - e).toNat * 2 ^ e := by
      rw [← zpow_natCast, ← zpow_add₀ (by norm_num)]
      congr 1
      omega
    have hne : (2 : ℚ) ^ (t - e).toNat ≠ 0 := pow_ne_zero _ (by norm_num)
    rw [hsplit]
    push_cast
    field_simp
  have hpos : 0 < d * 2 ^ (t - e).toNat := Nat.mul_pos hd (Nat.two_pow_pos _)
  rw [hvalue] at h hfits
  rw [roundWithAccuracy, hfirst]
  dsimp only
  rw [hshifted.roundedMantissa]
  -- the second shift does nothing, unless the first one was by one bit too few
  rcases hexponent with rfl | ⟨rfl, hpower, hleast⟩
  · have hlog : p.significand.log2 < 53 := (Nat.log2_lt hp.pos.ne').2 hp.lt
    have hleast := hp.least
    rw [roundQuotient_of_contains hpos h, shiftToTargetExponent_of_ge _ (by
      rw [targetExponent_eq, totalExponent]
      omega)]
    exact dif_neg hp.pos.ne'
  · have htarget : Format.binary64.targetExponent (totalExponent (2 ^ 53) (p.exponent - 1)) =
        p.exponent := by
      rw [targetExponent_eq, totalExponent, Nat.log2_two_pow]
      omega
    have hone : (p.exponent - (p.exponent - 1)).toNat = 1 := by omega
    rw [roundQuotient_below hpos hpower hleast h hfits.lt,
      shiftToTargetExponent_of_le _ (by rw [htarget]; omega), htarget, hone]
    obtain ⟨negative, significand, exponent⟩ := p
    cases hpower
    rfl

variable {m₁ m₂ : Nat} {e₁ e₂ : Int}

theorem div_finite (hp : p.Canonical) (h₁ : 0 < m₁) (h₂ : 0 < m₂)
    (h : (Interval.around p).Contains (m₁ * 2 ^ e₁ / (m₂ * 2 ^ e₂))) :
    UnpackedFloat.div .binary64 (.finite .positive m₁ e₁ h₁) (.finite .positive m₂ e₂ h₂) =
      .finite .positive p.significand p.exponent hp.pos := by
  have hdiv : UnpackedFloat.div .binary64 (.finite .positive m₁ e₁ h₁)
      (.finite .positive m₂ e₂ h₂) = roundWithAccuracy .binary64 .positive
        (divCore .binary64 m₁ e₁ m₂ e₂).1 (divCore .binary64 m₁ e₁ m₂ e₂).2.1
        (divCore .binary64 m₁ e₁ m₂ e₂).2.2 := rfl
  rw [hdiv, divCore]
  dsimp only
  generalize ht : min (e₁ - e₂) (Format.binary64.targetExponent
    (totalExponent m₁ e₁ - totalExponent m₂ e₂)) = t
  rw [targetExponent_eq, totalExponent, totalExponent] at ht
  rw [Nat.shiftLeft_eq]
  refine roundWithAccuracy_eq hp h₂ (approximates_fraction _ h₂) ?_ ?_ _
  · rw [targetExponent_eq, totalExponent]
    rcases le_or_gt t (-1074) with hleast | hleast
    · exact le_max_of_le_right hleast
    · have hsize : 2 ^ 52 ≤ m₁ * 2 ^ (e₁ - e₂ - t).toNat / m₂ := by
        rw [Nat.le_div_iff_mul_le h₂]
        calc 2 ^ 52 * m₂ ≤ 2 ^ 52 * 2 ^ (m₂.log2 + 1) :=
              Nat.mul_le_mul_left _ Nat.lt_log2_self.le
          _ = 2 ^ (52 + (m₂.log2 + 1)) := (Nat.pow_add ..).symm
          _ ≤ 2 ^ (m₁.log2 + (e₁ - e₂ - t).toNat) :=
              Nat.pow_le_pow_right (by decide) (by omega)
          _ = 2 ^ m₁.log2 * 2 ^ (e₁ - e₂ - t).toNat := Nat.pow_add ..
          _ ≤ m₁ * 2 ^ (e₁ - e₂ - t).toNat :=
              Nat.mul_le_mul_right _ (Nat.log2_self_le h₁.ne')
      have hlog := (Nat.le_log2 (by omega)).2 hsize
      omega
  · have hsplit : (2 : ℚ) ^ e₁ = 2 ^ (e₁ - e₂ - t).toNat * 2 ^ t * 2 ^ e₂ := by
      rw [← zpow_natCast, ← zpow_add₀ (by norm_num), ← zpow_add₀ (by norm_num)]
      congr 1
      omega
    have hne : (2 : ℚ) ^ e₂ ≠ 0 := zpow_ne_zero _ (by norm_num)
    have hvalue : (m₁ * 2 ^ e₁ / (m₂ * 2 ^ e₂) : ℚ) =
        (m₁ * 2 ^ (e₁ - e₂ - t).toNat : Nat) / m₂ * 2 ^ t := by
      rw [hsplit]
      push_cast
      field_simp
    rwa [← hvalue]

theorem mul_finite (hp : p.Canonical) (h₁ : 0 < m₁) (h₂ : 0 < m₂) (hsize : 2 ^ 52 ≤ m₁ * m₂)
    (h : (Interval.around p).Contains (m₁ * 2 ^ e₁ * (m₂ * 2 ^ e₂))) :
    UnpackedFloat.mul .binary64 (.finite .positive m₁ e₁ h₁) (.finite .positive m₂ e₂ h₂) =
      .finite .positive p.significand p.exponent hp.pos := by
  have hmul : UnpackedFloat.mul .binary64 (.finite .positive m₁ e₁ h₁)
      (.finite .positive m₂ e₂ h₂) =
        roundWithAccuracy .binary64 .positive (m₁ * m₂) (e₁ + e₂) .exact := rfl
  rw [hmul]
  refine roundWithAccuracy_eq hp Nat.one_pos (approximates_exact _) ?_ ?_ _
  · have hlog := (Nat.le_log2 (by omega)).2 hsize
    rw [targetExponent_eq, totalExponent]
    omega
  · have hvalue : (m₁ * 2 ^ e₁ * (m₂ * 2 ^ e₂) : ℚ) =
        (m₁ * m₂ : Nat) / (1 : Nat) * 2 ^ (e₁ + e₂) := by
      rw [zpow_add₀ (by norm_num)]
      push_cast
      ring
    rwa [← hvalue]

end Binary64

end PlanarDrive
