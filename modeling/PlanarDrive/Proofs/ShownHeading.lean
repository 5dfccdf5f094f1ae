import PlanarDrive.PoseTable
import PlanarDrive.Proofs.ExactNumbers

/-!
# Headings that are shown

A rover that has turned many times is headed as one that has not turned at all. In exact numbers the
shown heading forgets whole turns and nothing else: it lies within one turn, a whole number of turns
away from the heading that was counted, and rounding moves it by half a degree at most, across the
end of the turn if need be.
-/

namespace PlanarDrive

/-- Exact numbers with the remainder of the flooring division. -/
class Exact.FloorsRemainder (K : Type) [Field K] [LinearOrder K] [FloorRing K] [Exact K] :
    Prop where
  modulo_eq (x y : K) : Exact.modulo x y = x - y * ⌊x / y⌋

instance : Exact.FloorsRemainder ℝ where
  modulo_eq _ _ := rfl

/-- A pose is shown with a degree from 0 to 359. -/
theorem Pose.text_eq_ok {pose : Pose Binary64} {text : String} (h : pose.text = .ok text) :
    ∃ degree : ℤ, Heading.wholeDegree pose.theta = .ok degree ∧ 0 ≤ degree ∧ degree < 360 ∧
      text = String.ofList ('(' :: (Decimal.fixed 2 pose.x ++ [',', ' '] ++
        Decimal.fixed 2 pose.y ++ [',', ' '])) ++ toString degree ++ "°)" := by
  unfold Pose.text at h
  cases hdegree : Heading.wholeDegree pose.theta with
  | error f =>
    rw [hdegree] at h
    cases h
  | ok degree =>
    rw [hdegree] at h
    cases h
    obtain ⟨hnonneg, hlt⟩ := Heading.wholeDegree_range hdegree
    exact ⟨degree, rfl, hnonneg, hlt, rfl⟩

variable {K : Type} [Field K] [LinearOrder K] [IsStrictOrderedRing K] [FloorRing K] [Exact K]
  [Exact.FloorsRemainder K]

namespace Heading

section Remainder

variable {y : K} (hy : 0 < y)
include hy

theorem modulo_mem (x : K) : 0 ≤ Exact.modulo x y ∧ Exact.modulo x y < y := by
  have hfloor := Int.floor_le (x / y)
  have hlt := Int.lt_floor_add_one (x / y)
  rw [le_div_iff₀ hy] at hfloor
  rw [div_lt_iff₀ hy] at hlt
  rw [Exact.FloorsRemainder.modulo_eq]
  constructor <;> linarith

theorem modulo_add_mul (x : K) (n : ℤ) : Exact.modulo (x + y * n) y = Exact.modulo x y := by
  have hquotient : (x + y * n) / y = x / y + n := by field_simp
  rw [Exact.FloorsRemainder.modulo_eq, Exact.FloorsRemainder.modulo_eq, hquotient,
    Int.floor_add_intCast]
  push_cast
  ring

end Remainder

/-- In exact numbers no remainder is rounded up to a full turn. -/
theorem wrapped_eq (theta : K) : wrapped theta = Exact.modulo (theta * 180 / Exact.pi) 360 := by
  have hturn : (360.0 : K) = 360 := by norm_num
  have hlt := (modulo_mem (by norm_num : (0 : K) < 360) (theta * 180 / Exact.pi)).2
  have h : wrapped theta = if (360.0 : K) ≤ Exact.modulo (Scalar.degrees theta) 360.0 then 0.0
      else Exact.modulo (Scalar.degrees theta) 360.0 := rfl
  rw [h, Exact.scalar_degrees, hturn, if_neg hlt.not_ge]

theorem wrapped_mem (theta : K) : 0 ≤ wrapped theta ∧ wrapped theta < 360 := by
  rw [wrapped_eq]
  exact modulo_mem (by norm_num) _

theorem exists_wrapped_eq (theta : K) :
    ∃ n : ℤ, wrapped theta = theta * 180 / Exact.pi - 360 * n :=
  ⟨_, (wrapped_eq theta).trans (Exact.FloorsRemainder.modulo_eq _ _)⟩

/-- Whole turns are not shown. -/
theorem wrapped_add_turns (theta : K) (n : ℤ) :
    wrapped (theta + 2 * Exact.pi * n) = wrapped theta := by
  have hpi : (Exact.pi : K) ≠ 0 := Exact.pi_pos.ne'
  have hturns : (theta + 2 * Exact.pi * n) * 180 / Exact.pi =
      theta * 180 / Exact.pi + 360 * n := by
    field_simp
    ring
  rw [wrapped_eq, wrapped_eq, hturns, modulo_add_mul (by norm_num)]

end Heading

variable [Exact.RoundsHalfEven K]

theorem Heading.exists_wholeDegree_near (theta : K) :
    ∃ degree n : ℤ, wholeDegree theta = .ok degree ∧
      |(degree : K) - (theta * 180 / Exact.pi - 360 * n)| ≤ 1 / 2 := by
  obtain ⟨n, hn⟩ := exists_wrapped_eq theta
  obtain ⟨r, hr⟩ : ∃ r, r = Exact.roundEven (wrapped theta) := ⟨_, rfl⟩
  have hnear := Exact.RoundsHalfEven.abs_sub_roundEven_le (wrapped theta)
  rw [← hr, hn, abs_sub_comm] at hnear
  have hdegree : wholeDegree theta = .ok (r % 360) := by
    rw [hr]
    rfl
  -- a degree that is rounded up to the full turn is shown one turn less
  have hturn : (r : K) = (r % 360 : ℤ) + 360 * (r / 360 : ℤ) := by
    exact_mod_cast (Int.emod_add_mul_ediv r 360).symm
  refine ⟨r % 360, n + r / 360, hdegree, ?_⟩
  rw [hturn] at hnear
  convert hnear using 2
  push_cast
  ring

/-- The heading that is shown lies within one turn, is a whole number of turns away from the heading
in degrees, and is the same when the rover has made whole turns. So is the whole degree that is
shown, but for half a degree that is lost to rounding; this degree is what the text of a pose
holds. -/
theorem shown_heading_forgets_turns (theta : K) (turns : ℤ) :
    0 ≤ Heading.wrapped theta ∧ Heading.wrapped theta < 360 ∧
      (∃ n : ℤ, Heading.wrapped theta = theta * 180 / Exact.pi - 360 * n) ∧
      Heading.wrapped (theta + 2 * Exact.pi * turns) = Heading.wrapped theta ∧
      (∃ degree n : ℤ, Heading.wholeDegree theta = .ok degree ∧ 0 ≤ degree ∧ degree < 360 ∧
        |(degree : K) - (theta * 180 / Exact.pi - 360 * n)| ≤ 1 / 2 ∧
        Heading.wholeDegree (theta + 2 * Exact.pi * turns) = .ok degree) ∧
      ∀ (pose : Pose Binary64) text, pose.text = .ok text →
        ∃ degree : ℤ, Heading.wholeDegree pose.theta = .ok degree ∧ 0 ≤ degree ∧ degree < 360 ∧
          text = String.ofList ('(' :: (Decimal.fixed 2 pose.x ++ [',', ' '] ++
            Decimal.fixed 2 pose.y ++ [',', ' '])) ++ toString degree ++ "°)" := by
  obtain ⟨hnonneg, hlt⟩ := Heading.wrapped_mem theta
  have hwrapped := Heading.wrapped_add_turns theta turns
  refine ⟨hnonneg, hlt, Heading.exists_wrapped_eq theta, hwrapped, ?_,
    fun pose text => Pose.text_eq_ok⟩
  obtain ⟨degree, n, hdegree, hnear⟩ := Heading.exists_wholeDegree_near theta
  obtain ⟨hfirst, hlast⟩ := Heading.wholeDegree_range hdegree
  refine ⟨degree, n, hdegree, hfirst, hlast, hnear, ?_⟩
  rw [← hdegree, Heading.wholeDegree, hwrapped, Heading.wholeDegree]

/-- A quarter of a degree before a full turn, three turns back, is shown as none. -/
theorem shown_heading_forgets_turns_lastQuarter :
    Heading.wrapped (1439 * Real.pi / 720) = 359.75 ∧
      Heading.wholeDegree (1439 * Real.pi / 720 + 2 * Real.pi * (-3 : ℤ)) = .ok 0 := by
  obtain ⟨hnonneg, hlt, ⟨n, hn⟩, -, ⟨degree, k, -, hfirst, hlast, hnear, hdegree⟩, -⟩ :=
    shown_heading_forgets_turns (1439 * Real.pi / 720) (-3)
  have hpi : (1439 * Real.pi / 720) * 180 / Exact.pi = 359.75 := by
    show (1439 * Real.pi / 720) * 180 / Real.pi = 359.75
    have h := Real.pi_ne_zero
    field_simp
    norm_num
  rw [hpi] at hn hnear
  refine ⟨?_, hdegree.trans (congrArg _ ?_)⟩
  · rw [hn] at hnonneg hlt
    have hlow : (-1 : ℝ) < n := by linarith
    have hhigh : (n : ℝ) < 1 := by linarith
    obtain rfl : n = 0 := by
      norm_cast at hlow hhigh
      omega
    rw [hn, Int.cast_zero, mul_zero, sub_zero]
  · obtain ⟨hlow, hhigh⟩ := abs_le.1 hnear
    have hlow : 1437 ≤ 4 * (degree + 360 * k) := by
      have h : (1437 : ℝ) ≤ 4 * (degree + 360 * k) := by linarith
      exact_mod_cast h
    have hhigh : 4 * (degree + 360 * k) ≤ 1441 := by
      have h : 4 * ((degree : ℝ) + 360 * k) ≤ 1441 := by linarith
      exact_mod_cast h
    omega

end PlanarDrive
