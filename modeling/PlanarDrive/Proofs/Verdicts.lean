import PlanarDrive.Proofs.Attempts
import PlanarDrive.Proofs.ExactNumbers
import PlanarDrive.RunMetrics

/-!
# One verdict on a run

Whether a goal contains the last position of a run, how the run is judged, what its metrics say and
how it completes an attempt is one verdict in exact numbers, though the distance to the goal is
taken from either end. It depends on the last position and the goal alone: a run succeeds on the
edge of the goal as well, never at a goal of negative radius, and a wider goal is no harder.
-/

namespace PlanarDrive

theorem RunMetrics.ofTrajectory_of_last {α : Type} [Scalar α] {samples : List (Sample α)}
    {last : Sample α} (h : samples.getLast? = some last) (goal : Goal α) (mission : Option String)
    (motions : Nat) :
    ofTrajectory samples goal mission motions = .ok
      ⟨(goal.judgePose last.pose).success, (goal.judgePose last.pose).finalDistance,
        Trajectory.pathLength samples, last.time, samples.length, motions, mission, []⟩ := by
  obtain ⟨hlast, hjudge⟩ := goal.judge_of_last h
  rw [ofTrajectory, hjudge, hlast]
  rfl

variable {K : Type} [Field K] [LinearOrder K] [Exact K]

section Distance

variable [Exact.MeasuresDistance K]

theorem Exact.hypot_sub_comm (a b c d : K) :
    Exact.hypot (a - b) (c - d) = Exact.hypot (b - a) (d - c) := by
  rw [MeasuresDistance.hypot_eq, MeasuresDistance.hypot_eq, ← neg_sub b, ← neg_sub d, neg_mul_neg,
    neg_mul_neg]

/-- From the goal to the pose it is as far as from the pose to the goal. -/
theorem Goal.contains_eq_success (goal : Goal K) (pose : Pose K) :
    goal.contains pose.x pose.y = (goal.judgePose pose).success := by
  show decide (Exact.hypot (pose.x - goal.x) (pose.y - goal.y) ≤ goal.r) =
    decide (Exact.hypot (goal.x - pose.x) (goal.y - pose.y) ≤ goal.r)
  rw [Exact.hypot_sub_comm]

end Distance

variable [IsStrictOrderedRing K]

theorem Exact.sqrt_le_iff [HasRoots K] {x r : K} (hx : 0 ≤ x) :
    Exact.sqrt x ≤ r ↔ 0 ≤ r ∧ x ≤ r * r := by
  have hroot := HasRoots.sqrt_nonneg x hx
  have hsquare := HasRoots.sqrt_mul_self x hx
  constructor
  · intro h
    refine ⟨hroot.trans h, ?_⟩
    rw [← hsquare]
    exact mul_self_le_mul_self hroot h
  · rintro ⟨hr, h⟩
    rw [← hsquare] at h
    exact (mul_self_le_mul_self_iff hroot hr).2 h

variable [Exact.MeasuresDistance K]

theorem Exact.hypot_le_iff (x y r : K) :
    Exact.hypot x y ≤ r ↔ 0 ≤ r ∧ x * x + y * y ≤ r * r := by
  rw [MeasuresDistance.hypot_eq,
    sqrt_le_iff (add_nonneg (mul_self_nonneg x) (mul_self_nonneg y))]

namespace Goal

theorem contains_iff (goal : Goal K) (x y : K) :
    goal.contains x y = true ↔
      0 ≤ goal.r ∧ (x - goal.x) ^ 2 + (y - goal.y) ^ 2 ≤ goal.r ^ 2 := by
  rw [sq, sq, sq, ← Exact.hypot_le_iff]
  exact decide_eq_true_iff

theorem finalDistance_judgePose (goal : Goal K) (pose : Pose K) :
    0 ≤ (goal.judgePose pose).finalDistance ∧
      (goal.judgePose pose).finalDistance ^ 2 =
        (pose.x - goal.x) ^ 2 + (pose.y - goal.y) ^ 2 := by
  have hsquares : 0 ≤ (pose.x - goal.x) * (pose.x - goal.x) +
      (pose.y - goal.y) * (pose.y - goal.y) :=
    add_nonneg (mul_self_nonneg _) (mul_self_nonneg _)
  have hroot : (goal.judgePose pose).finalDistance = Exact.sqrt _ :=
    (Exact.hypot_sub_comm goal.x pose.x goal.y pose.y).trans
      (Exact.MeasuresDistance.hypot_eq (pose.x - goal.x) (pose.y - goal.y))
  rw [hroot, sq, sq, sq]
  exact ⟨Exact.HasRoots.sqrt_nonneg _ hsquares, Exact.HasRoots.sqrt_mul_self _ hsquares⟩

end Goal

/-- Every run with a sample gets one verdict. The judge, the goal asked for the last position, the
metrics and any attempt that is not yet completed agree on it. It is a success exactly when the
radius is not negative and the last position lies at most that far from the centre. No run that ends
in the same place is judged differently, another radius leaves the distance as it is, and a larger
one takes no success back. -/
theorem verdicts_coincide (goal : Goal K) {samples : List (Sample K)} (h : samples ≠ []) :
    ∃ last verdict, samples.getLast? = some last ∧ goal.judge samples = .ok verdict ∧
      goal.contains last.pose.x last.pose.y = verdict.success ∧
      (∀ mission motions, ∃ metrics,
        RunMetrics.ofTrajectory samples goal mission motions = .ok metrics ∧
          metrics.success = verdict.success ∧ metrics.finalDistance = verdict.finalDistance) ∧
      (∀ a : Attempt K, a.goal = goal → a.verdict = none →
        a.complete samples = (.ok verdict, { a with verdict := some verdict })) ∧
      (verdict.success = true ↔ 0 ≤ goal.r ∧
        (last.pose.x - goal.x) ^ 2 + (last.pose.y - goal.y) ^ 2 ≤ goal.r ^ 2) ∧
      0 ≤ verdict.finalDistance ∧
      verdict.finalDistance ^ 2 = (last.pose.x - goal.x) ^ 2 + (last.pose.y - goal.y) ^ 2 ∧
      (∀ others other, others.getLast? = some other → other.pose.x = last.pose.x →
        other.pose.y = last.pose.y → goal.judge others = .ok verdict) ∧
      ∀ r, ∃ wider, ({ goal with r := r } : Goal K).judge samples = .ok wider ∧
        wider.finalDistance = verdict.finalDistance ∧
        (goal.r ≤ r → verdict.success = true → wider.success = true) := by
  obtain ⟨last, hlast⟩ : ∃ last, samples.getLast? = some last :=
    ⟨_, List.getLast?_eq_some_getLast h⟩
  have hjudge := (goal.judge_of_last hlast).2
  obtain ⟨hnonneg, hsquare⟩ := goal.finalDistance_judgePose last.pose
  refine ⟨last, goal.judgePose last.pose, hlast, hjudge, goal.contains_eq_success last.pose, ?_, ?_,
    ?_, hnonneg, hsquare, ?_, fun r => ?_⟩
  · intro mission motions
    exact ⟨_, RunMetrics.ofTrajectory_of_last hlast goal mission motions, rfl, rfl⟩
  · rintro a rfl hopen
    exact Attempt.complete_of_judge_eq_ok hopen hjudge
  · rw [← goal.contains_eq_success, goal.contains_iff]
  · intro others other hother hx hy
    rw [(goal.judge_of_last hother).2, Goal.judgePose, hx, hy]
    rfl
  · refine ⟨_, (Goal.judge_of_last _ hlast).2, rfl, fun hr hsuccess => ?_⟩
    have hnear : (goal.judgePose last.pose).finalDistance ≤ goal.r := of_decide_eq_true hsuccess
    exact decide_eq_true (hnear.trans hr)

/-- On the edge of a goal, which a goal of the opposite radius does not reach. -/
theorem verdicts_coincide_edge :
    [(⟨0, ⟨3, 4, 0⟩⟩ : Sample ℝ), ⟨1, ⟨0, 0, 2⟩⟩] ≠ [] ∧
      (∃ verdict, (⟨3, 4, 5⟩ : Goal ℝ).judge [⟨0, ⟨3, 4, 0⟩⟩, ⟨1, ⟨0, 0, 2⟩⟩] = .ok verdict ∧
        verdict.success = true ∧ verdict.finalDistance = 5) ∧
      ∃ verdict, (⟨3, 4, -5⟩ : Goal ℝ).judge [⟨0, ⟨3, 4, 0⟩⟩, ⟨1, ⟨0, 0, 2⟩⟩] = .ok verdict ∧
        verdict.success = false ∧ verdict.finalDistance = 5 := by
  have hne : [(⟨0, ⟨3, 4, 0⟩⟩ : Sample ℝ), ⟨1, ⟨0, 0, 2⟩⟩] ≠ [] := List.cons_ne_nil _ _
  have hfive {d : ℝ} (hd : 0 ≤ d) (hsq : d ^ 2 = (0 - 3) ^ 2 + (0 - 4) ^ 2) : d = 5 := by
    nlinarith
  refine ⟨hne, ?_, ?_⟩
  · obtain ⟨last, verdict, hlast, hjudge, -, -, -, hsuccess, hnonneg, hsquare, -⟩ :=
      verdicts_coincide (⟨3, 4, 5⟩ : Goal ℝ) hne
    cases hlast
    exact ⟨verdict, hjudge, hsuccess.2 (by norm_num), hfive hnonneg hsquare⟩
  · obtain ⟨last, verdict, hlast, hjudge, -, -, -, hsuccess, hnonneg, hsquare, -⟩ :=
      verdicts_coincide (⟨3, 4, -5⟩ : Goal ℝ) hne
    cases hlast
    refine ⟨verdict, hjudge, ?_, hfive hnonneg hsquare⟩
    rw [← Bool.not_eq_true, hsuccess]
    norm_num

end PlanarDrive
