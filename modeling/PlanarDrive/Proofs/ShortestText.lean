import PlanarDrive.Proofs.DecimalReading
import PlanarDrive.Proofs.ExactText

/-!
# The text of a number reads back

The shortest numeral of a number lies in the interval of what is rounded to it: a point of a decimal
grid is only taken from there, and one of seventeen digits is always near enough. Its text has the
value of the numeral and the sign of the number. So the text of every finite number is read as this
number, bit by bit.
-/

namespace PlanarDrive

namespace Decimal

open Binary64 (Parts)

def Numeral.value (n : Numeral) : ℚ :=
  n.coefficient * 10 ^ n.exponent

theorem zpow_eq_div (b : Nat) (k : Int) :
    (b : ℚ) ^ k = (if k < 0 then 1 else Nat.pow b k.natAbs : Nat) /
      (if k < 0 then Nat.pow b k.natAbs else 1 : Nat) := by
  by_cases hk : k < 0
  · rw [if_pos hk, if_pos hk, Nat.pow_eq, Nat.cast_pow, ← zpow_natCast,
      show (k.natAbs : Int) = -k by omega, zpow_neg, Nat.cast_one, one_div, inv_inv]
  · rw [if_neg hk, if_neg hk, Nat.pow_eq, Nat.cast_pow, ← zpow_natCast,
      show (k.natAbs : Int) = k by omega, Nat.cast_one, div_one]

theorem ratio_value (p : Parts) :
    (p.ratio.1 / p.ratio.2 : ℚ) = p.significand * 2 ^ p.exponent := by
  have htwo := zpow_eq_div 2 p.exponent
  rw [Nat.cast_ofNat] at htwo
  rw [htwo, Parts.ratio]
  by_cases hneg : p.exponent < 0
  · simp only [if_pos hneg]
    push_cast
    ring
  · simp only [if_neg hneg]
    push_cast
    ring

theorem shift_value (num den : Nat) (k : Int) :
    ((shift num den k).1 / (shift num den k).2 : ℚ) = num / den * 10 ^ k := by
  have hten := zpow_eq_div 10 k
  rw [Nat.cast_ofNat] at hten
  rw [hten, shift]
  by_cases hneg : k < 0
  · simp only [if_pos hneg]
    push_cast
    rw [div_mul_div_comm, mul_one]
  · simp only [if_neg hneg]
    push_cast
    ring

namespace Interval

variable {i : Interval} (hi : i.below ≤ i.value)
include hi

theorem contains_of_holds {n d : Nat} (hd : 0 < d) (h : i.holds n d = true) :
    i.Contains (n / d * 2 ^ i.scale) := by
  have hdpos : (0 : ℚ) < d := by exact_mod_cast hd
  have htwo : (0 : ℚ) < 2 ^ i.scale := zpow_pos (by norm_num) _
  have hlow : (i.value - i.below : ℚ) = (i.value - i.below : Nat) := (Nat.cast_sub hi).symm
  have hhigh : (i.value + i.above : ℚ) = (i.value + i.above : Nat) := (Nat.cast_add ..).symm
  have hle (m : Nat) : (m * 2 ^ i.scale : ℚ) ≤ n / d * 2 ^ i.scale ↔ m * d ≤ n := by
    rw [mul_le_mul_iff_left₀ htwo, le_div_iff₀ hdpos]
    norm_cast
  have hge (m : Nat) : (n / d * 2 ^ i.scale : ℚ) ≤ m * 2 ^ i.scale ↔ n ≤ m * d := by
    rw [mul_le_mul_iff_left₀ htwo, div_le_iff₀ hdpos]
    norm_cast
  unfold holds at h
  dsimp only at h
  cases hclosed : i.closed with
  | true =>
    simp only [hclosed, if_true, Bool.and_eq_true, decide_eq_true_eq] at h
    exact ⟨by rw [hlow, hle]; exact h.1, by rw [hhigh, hge]; exact h.2, .inl hclosed⟩
  | false =>
    simp only [hclosed, Bool.false_eq_true, if_false, Bool.and_eq_true, decide_eq_true_eq] at h
    refine ⟨by rw [hlow, hle]; exact h.1.le, by rw [hhigh, hge]; exact h.2.le, .inr ⟨?_, ?_⟩⟩
    · rw [hlow, ← not_le, hge, not_le]
      exact h.1
    · rw [hhigh, ← not_le, hle, not_le]
      exact h.2

theorem contains_onGrid {k : Int} {c : Nat} (h : i.onGrid k = some c) :
    i.Contains (c * 10 ^ k) := by
  have htwo := zpow_eq_div 2 i.scale
  have hten := zpow_eq_div 10 k
  have hpow {b j : Nat} (hb : 0 < b) : 0 < Nat.pow b j := Nat.pow_pos hb
  have hfactors : 0 < (if k < 0 then Nat.pow 10 k.natAbs else 1) ∧
      0 < (if i.scale < 0 then 1 else Nat.pow 2 i.scale.natAbs) ∧
      0 < (if i.scale < 0 then Nat.pow 2 i.scale.natAbs else 1) := by
    refine ⟨?_, ?_, ?_⟩ <;> split <;> first | exact hpow (by decide) | exact Nat.one_pos
  obtain ⟨hten_den, htwo_num, htwo_den⟩ := hfactors
  unfold onGrid at h
  extract_lets two ten unit den floor first second at h
  have hholds : i.holds (c * unit) den = true := by
    split at h
    · next hfirst =>
      rw [← Option.some.inj h]
      exact hfirst
    · split at h
      · next hsecond =>
        rw [← Option.some.inj h]
        exact hsecond
      · cases h
  have hvalue : ((c * unit : Nat) / den * 2 ^ i.scale : ℚ) = c * 10 ^ k := by
    have h₁ : ((if k < 0 then Nat.pow 10 k.natAbs else 1 : Nat) : ℚ) ≠ 0 := by
      exact_mod_cast hten_den.ne'
    have h₂ : ((if i.scale < 0 then 1 else Nat.pow 2 i.scale.natAbs : Nat) : ℚ) ≠ 0 := by
      exact_mod_cast htwo_num.ne'
    have h₃ : ((if i.scale < 0 then Nat.pow 2 i.scale.natAbs else 1 : Nat) : ℚ) ≠ 0 := by
      exact_mod_cast htwo_den.ne'
    rw [Nat.cast_ofNat] at htwo hten
    rw [htwo, hten]
    simp only [unit, den, two, ten, Nat.cast_mul]
    field_simp
  rw [← hvalue]
  exact contains_of_holds hi (Nat.mul_pos hten_den htwo_num) hholds

theorem contains_firstOnGrid {top : Int} {digits tries : Nat} {n : Numeral}
    (h : i.firstOnGrid top digits tries = some n) : i.Contains n.value := by
  induction tries generalizing digits with
  | zero => cases h
  | succ tries ih =>
    simp only [firstOnGrid] at h
    split at h
    · next hgrid =>
      cases h
      exact contains_onGrid hi hgrid
    · exact ih h

end Interval

section Shortest

variable {p : Parts} (hp : p.Canonical)
include hp

theorem pow_order_le : (10 : ℚ) ^ order p.ratio.1 p.ratio.2 ≤ p.significand * 2 ^ p.exponent := by
  obtain ⟨hnum, hden⟩ := ratio_pos hp.pos
  obtain ⟨hd, hle⟩ := shift_order hnum hden (-order p.ratio.1 p.ratio.2) le_rfl
  have hone : (1 : ℚ) ≤ (shift p.ratio.1 p.ratio.2 (-order p.ratio.1 p.ratio.2)).1 /
      (shift p.ratio.1 p.ratio.2 (-order p.ratio.1 p.ratio.2)).2 := by
    rw [one_le_div (by exact_mod_cast hd)]
    exact_mod_cast hle
  rwa [shift_value, ratio_value, zpow_neg, ← div_eq_mul_inv,
    one_le_div (zpow_pos (by norm_num) _)] at hone

/-- Rounded to a unit of the seventeenth digit, a number is half of the unit away at most. -/
theorem significant_near {o : Int} (ho : order p.ratio.1 p.ratio.2 = o) :
    (p.significand * 2 ^ p.exponent - 10 ^ (o - 16) / 2 : ℚ) ≤
        (Numeral.significant 17 p.ratio.1 p.ratio.2).value ∧
      (Numeral.significant 17 p.ratio.1 p.ratio.2).value ≤
        p.significand * 2 ^ p.exponent + 10 ^ (o - 16) / 2 := by
  obtain ⟨hnum, hden⟩ := ratio_pos hp.pos
  obtain ⟨hd, -⟩ := shift_order hnum hden (16 - o) (by omega)
  obtain ⟨hlow, hhigh⟩ := roundQuotient_near (shift p.ratio.1 p.ratio.2 (16 - o)).1 hd
  rw [shift_value, ratio_value] at hlow hhigh
  have hvalue : (Numeral.significant 17 p.ratio.1 p.ratio.2).value =
      roundQuotient (shift p.ratio.1 p.ratio.2 (16 - o)).1 (shift p.ratio.1 p.ratio.2 (16 - o)).2 *
        10 ^ (o - 16) := by
    rw [Numeral.significant, Numeral.value, ho]
    have hexponent : o - ((17 : Nat) - 1 : Int) = o - 16 := by push_cast; ring
    have hpower : -(o - 16) = 16 - o := by ring
    simp only [hexponent, hpower]
  have hunit : (10 : ℚ) ^ (16 - o) * 10 ^ (o - 16) = 1 := by
    rw [← zpow_add₀ (by norm_num), show 16 - o + (o - 16) = 0 by ring, zpow_zero]
  have hpos : (0 : ℚ) < 10 ^ (o - 16) := zpow_pos (by norm_num) _
  rw [hvalue]
  constructor
  · calc (p.significand * 2 ^ p.exponent - 10 ^ (o - 16) / 2 : ℚ) =
          (p.significand * 2 ^ p.exponent * 10 ^ (16 - o) - 1 / 2) * 10 ^ (o - 16) := by
            rw [sub_mul, mul_assoc _ ((10 : ℚ) ^ (16 - o)), hunit]
            ring
      _ ≤ _ := mul_le_mul_of_nonneg_right hlow hpos.le
  · calc _ ≤ (p.significand * 2 ^ p.exponent * 10 ^ (16 - o) + 1 / 2 : ℚ) * 10 ^ (o - 16) :=
          mul_le_mul_of_nonneg_right hhigh hpos.le
      _ = p.significand * 2 ^ p.exponent + 10 ^ (o - 16) / 2 := by
          rw [add_mul, mul_assoc _ ((10 : ℚ) ^ (16 - o)), hunit]
          ring

/-- Seventeen digits are near enough to tell a number from its neighbours. -/
theorem contains_significant :
    (Interval.around p).Contains (Numeral.significant 17 p.ratio.1 p.ratio.2).value := by
  obtain ⟨hlow, hhigh⟩ := significant_near hp rfl
  have hfirst := pow_order_le hp
  generalize order p.ratio.1 p.ratio.2 = o at *
  have hsmall : (10 : ℚ) ^ (o - 16) * 10 ^ 16 = 10 ^ o := by
    rw [zpow_sub₀ (by norm_num)]
    norm_num
  have htwo : (0 : ℚ) < 2 ^ p.exponent := zpow_pos (by norm_num) _
  have hsig : (p.significand : ℚ) ≤ 2 ^ 53 := by exact_mod_cast hp.lt.le
  have hle := mul_le_mul_of_nonneg_right hsig htwo.le
  have hhalf : (10 : ℚ) ^ (o - 16) < 2 ^ p.exponent := by
    norm_num at hle hsmall
    linarith
  refine Interval.contains_of_lt ?_ (by linarith)
  rcases Interval.around_below p with hbelow | ⟨hbelow, hpower, -⟩
  · rw [hbelow]
    push_cast
    linarith
  · have hpower' : (p.significand : ℚ) = 2 ^ 52 := by exact_mod_cast hpower
    rw [hbelow]
    rw [hpower'] at hfirst hlow ⊢
    norm_num at hfirst hsmall hlow ⊢
    linarith

theorem contains_shortest : (Interval.around p).Contains (Numeral.shortest p).value := by
  have hpos := hp.pos
  have hbelow : (Interval.around p).below ≤ (Interval.around p).value := by
    rw [Interval.around]
    dsimp only
    split <;> omega
  unfold Numeral.shortest
  cases hfirst : (Interval.around p).firstOnGrid (order p.ratio.1 p.ratio.2) 0 17 with
  | none =>
    simp only [hfirst, Option.getD_none]
    exact contains_significant hp
  | some n =>
    simp only [hfirst, Option.getD_some]
    exact Interval.contains_firstOnGrid hbelow hfirst

end Shortest

theorem Spelling.Writes.value_eq {s : Spelling} {n : Numeral} (h : s.Writes n) :
    (ofDigits (s.whole ++ s.fraction) * 10 ^ (s.exponent - s.fraction.length) : ℚ) = n.value := by
  obtain ⟨fewer, more, hdigits, hpoint⟩ := h
  have hdigits' : (ofDigits (s.whole ++ s.fraction) * 10 ^ fewer : ℚ) =
      n.coefficient * 10 ^ more := by exact_mod_cast hdigits
  have hexponent : s.exponent - s.fraction.length = n.exponent + fewer - more := by omega
  have hmore : (10 : ℚ) ^ more ≠ 0 := pow_ne_zero _ (by norm_num)
  calc (ofDigits (s.whole ++ s.fraction) * 10 ^ (s.exponent - s.fraction.length) : ℚ)
      = ofDigits (s.whole ++ s.fraction) * 10 ^ fewer * 10 ^ n.exponent / 10 ^ more := by
        rw [hexponent, zpow_sub₀ (by norm_num), zpow_add₀ (by norm_num), zpow_natCast,
          zpow_natCast]
        ring
    _ = n.value := by
        rw [hdigits', Numeral.value, div_eq_iff hmore]
        ring

end Decimal

namespace Binary64

open Decimal (Interval)

theorem isNegative_neg {x : Binary64} (h : x.isNegative = true) : (-x).isNegative = false := by
  have hbits := toNat_neg_of_isNegative h
  have hlt := x.bits.toNat_lt
  rw [Bool.eq_false_iff, Ne, isNegative_iff]
  omega

theorem parts_neg {x : Binary64} (h : x.isNegative = true) :
    (-x).parts = { x.parts with negative := false } := by
  have hbits := toNat_neg_of_isNegative h
  have hbiased : (-x).bits.toNat / 2 ^ 52 % 2 ^ 11 = x.bits.toNat / 2 ^ 52 % 2 ^ 11 := by omega
  have hfraction : (-x).bits.toNat % 2 ^ 52 = x.bits.toNat % 2 ^ 52 := by omega
  by_cases hzero : x.bits.toNat / 2 ^ 52 % 2 ^ 11 = 0
  · rw [parts_of_biased_eq hzero, parts_of_biased_eq (hbiased.trans hzero), hfraction,
      isNegative_neg h]
  · rw [parts_of_biased_ne hzero, parts_of_biased_ne (hbiased ▸ hzero), hbiased, hfraction,
      isNegative_neg h]

theorem isFinite_neg {x : Binary64} (h : x.isNegative = true) (hfinite : x.IsFinite) :
    (-x).IsFinite := by
  have hbits := toNat_neg_of_isNegative h
  unfold IsFinite at *
  omega

theorem eq_zero_of_parts {x : Binary64} (hsign : x.isNegative = false)
    (hzero : x.parts.significand = 0) : x = 0.0 := by
  have hlow : ¬ 2 ^ 63 ≤ x.bits.toNat := fun h => by
    rw [isNegative_iff.2 h] at hsign
    cases hsign
  have hbits : x.bits.toNat = 0 := by
    by_cases hbiased : x.bits.toNat / 2 ^ 52 % 2 ^ 11 = 0
    · rw [parts_of_biased_eq hbiased] at hzero
      dsimp only at hzero
      omega
    · rw [parts_of_biased_ne hbiased] at hzero
      dsimp only at hzero
      omega
  exact congrArg mk (UInt64.toNat_inj.1 hbits)

/-- A number that is not negative is nearest to what its text stands for. -/
theorem nearestTo_writes {x : Binary64} (hfinite : x.IsFinite) (hsign : x.isNegative = false)
    {s : Decimal.Spelling} (h : s.Writes (Decimal.numeralOf x.parts)) :
    Decimal.nearestTo (Decimal.ofDigits (s.whole ++ s.fraction))
      (s.exponent - s.fraction.length) = x := by
  by_cases hzero : x.parts.significand = 0
  · rw [Decimal.numeralOf, if_pos hzero] at h
    obtain ⟨fewer, more, hdigits, -⟩ := h
    have hnone : Decimal.ofDigits (s.whole ++ s.fraction) = 0 := by
      simpa [Nat.pow_eq_zero] using hdigits
    rw [eq_zero_of_parts hsign hzero, Decimal.nearestTo, hnone, if_pos rfl]
  · rw [Decimal.numeralOf, if_neg hzero] at h
    have hpos := Nat.pos_of_ne_zero hzero
    refine nearestTo_eq hfinite hsign hpos ?_
    rw [h.value_eq]
    exact Decimal.contains_shortest (canonical_parts hfinite hpos)

/-- The text of every finite number reads back as the number. -/
theorem readFloat_exact {x : Binary64} (hnan : x.isNaN = false) (hinf : x.isInfinite = false) :
    Decimal.readFloat (Decimal.exact x) = some x := by
  obtain ⟨s, text, hspells, htext, hsign, hwrites⟩ := Decimal.exact_spells hnan hinf
  have hfinite := isFinite_of_isNaN_isInfinite hnan hinf
  rw [htext, hspells.readFloat, Option.some_inj, Decimal.Spelling.value, hsign]
  cases hnegative : x.isNegative with
  | false =>
    rw [nearestTo_writes hfinite hnegative hwrites]
    rfl
  | true =>
    -- neither the interval nor the numeral depends on the sign
    have hunsigned : s.Writes (Decimal.numeralOf (-x).parts) := by
      rw [parts_neg hnegative]
      exact hwrites
    rw [nearestTo_writes (isFinite_neg hnegative hfinite) (isNegative_neg hnegative) hunsigned]
    exact neg_neg x

end Binary64

end PlanarDrive
