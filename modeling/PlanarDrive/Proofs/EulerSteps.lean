import PlanarDrive.Proofs.ExactNumbers
import PlanarDrive.Proofs.Replay

/-!
# Euler steps in exact numbers

A drive of positive duration leaves the iterates of one Euler step, as many as its step count,
and its steps add up to its duration. A straight drive keeps the heading and a turn keeps the
position, so after any number of steps the sample is known in closed form.
-/

namespace PlanarDrive

variable {K : Type} [Field K] [LinearOrder K] [Exact K]

namespace Sample

def euler (v w h : K) (s : Sample K) : Sample K :=
  ⟨s.time + h, ⟨s.pose.x + v * Exact.cos s.pose.theta * h,
    s.pose.y + v * Exact.sin s.pose.theta * h, s.pose.theta + w * h⟩⟩

theorem advance_eq_euler (v w h : K) (s : Sample K) : s.advance v w h = .ok (s.euler v w h) :=
  rfl

theorem advanceTimes_eq_iterate (v w h : K) (n : ℕ) (s : Sample K) :
    advanceTimes v w h n [] s = ⟨List.iterate (euler v w h) (s.euler v w h) n, none⟩ := by
  induction n generalizing s with
  | zero => rfl
  | succ n ih => simp only [advanceTimes_succ, advance_eq_euler, ih, List.iterate]

/-- Straight on along the heading for a time. -/
def straightOn (v t : K) (s : Sample K) : Sample K :=
  ⟨s.time + t, ⟨s.pose.x + t * v * Exact.cos s.pose.theta,
    s.pose.y + t * v * Exact.sin s.pose.theta, s.pose.theta⟩⟩

theorem iterate_euler_straight (v h : K) (n : ℕ) (s : Sample K) :
    (euler v 0 h)^[n] s = s.straightOn v (n * h) := by
  induction n with
  | zero => simp [straightOn]
  | succ n ih =>
    rw [Function.iterate_succ_apply', ih, euler]
    simp only [straightOn, zero_mul, add_zero, Sample.mk.injEq, Pose.mk.injEq]
    push_cast
    exact ⟨by ring, by ring, by ring, trivial⟩

/-- A turn stays where it is. -/
theorem iterate_euler_turn (w h : K) (n : ℕ) (s : Sample K) :
    (euler 0 w h)^[n] s =
      ⟨s.time + n * h, ⟨s.pose.x, s.pose.y, s.pose.theta + n * h * w⟩⟩ := by
  induction n with
  | zero => simp
  | succ n ih =>
    rw [Function.iterate_succ_apply', ih, euler]
    simp only [zero_mul, add_zero, Sample.mk.injEq, Pose.mk.injEq, true_and]
    push_cast
    exact ⟨by ring, by ring⟩

end Sample

/-- Every positive number is a step of time. -/
theorem TimeStep.check_of_pos [IsStrictOrderedRing K] {dt : K} (h : 0 < dt) :
    ∃ step : TimeStep K, check dt = .ok step := by
  have hpos : ¬ dt ≤ (0.0 : K) := by
    rw [Exact.scalar_zero]
    exact h.not_ge
  exact ⟨⟨dt, rfl, hpos⟩, check_eq_ok_iff.2 rfl⟩

namespace Drive

variable (d : Drive K) (dt : TimeStep K)

def steps : ℕ :=
  max 1 (Exact.roundEven (d.duration / dt.value)).toNat

def stepLength : K :=
  d.duration / d.steps dt

theorem steps_pos : 0 < d.steps dt :=
  lt_of_lt_of_le one_pos (le_max_left _ _)

variable [IsStrictOrderedRing K]

theorem steps_mul_stepLength : d.steps dt * d.stepLength dt = d.duration := by
  have h : (d.steps dt : K) ≠ 0 := Nat.cast_ne_zero.2 (d.steps_pos dt).ne'
  rw [stepLength, mul_div_cancel₀ _ h]

theorem perform_of_pos (hd : 0 < d.duration) (s : Sample K) :
    d.perform dt s = ⟨List.iterate (Sample.euler d.v d.w (d.stepLength dt))
      (s.euler d.v d.w (d.stepLength dt)) (d.steps dt), none⟩ := by
  have hd' : (0.0 : K) < d.duration := by rwa [Exact.scalar_zero]
  have hcount : d.stepCount dt = .ok (d.steps dt) := rfl
  rw [← Sample.advanceTimes_eq_iterate]
  unfold perform
  rw [hcount]
  exact if_pos hd'

theorem perform_of_not_pos (hd : ¬ 0 < d.duration) (s : Sample K) :
    d.perform dt s = .empty := by
  have hd' : ¬ (0.0 : K) < d.duration := by rwa [Exact.scalar_zero]
  exact if_neg hd'

/-- The samples of a straight drive, all of them along the heading at its beginning. -/
theorem perform_straight (hd : 0 < d.duration) (hw : d.w = 0) (s : Sample K) :
    d.perform dt s = ⟨(List.range (d.steps dt)).map fun i =>
      s.straightOn d.v ((i + 1 : ℕ) * d.stepLength dt), none⟩ := by
  rw [perform_of_pos d dt hd, hw, ← List.range_map_iterate]
  simp only [← Function.iterate_succ_apply, Sample.iterate_euler_straight]

theorem stepLength_nonneg (hd : 0 ≤ d.duration) : 0 ≤ d.stepLength dt :=
  div_nonneg hd (Nat.cast_nonneg _)

theorem mul_stepLength_le (hd : 0 ≤ d.duration) {k : ℕ} (hk : k ≤ d.steps dt) :
    k * d.stepLength dt ≤ d.duration := by
  rw [← d.steps_mul_stepLength dt]
  exact mul_le_mul_of_nonneg_right (Nat.cast_le.2 hk) (d.stepLength_nonneg dt hd)

theorem leads_of_pos (hd : 0 < d.duration) (s : Sample K) :
    Motion.Leads dt [.drive d] s
      ((Sample.euler d.v d.w (d.stepLength dt))^[d.steps dt] s) := by
  obtain ⟨n, hn⟩ := Nat.exists_eq_succ_of_ne_zero (d.steps_pos dt).ne'
  have hp := d.perform_of_pos dt hd s
  refine Motion.leads_singleton_iff.2 ⟨?_, ?_⟩
  · show (d.perform dt s).fault = none
    rw [hp]
  · show (d.perform dt s).last s = _
    rw [hp, Trace.last, List.getLastD_eq_getLast?, List.getLast?_eq_getElem?,
      List.length_iterate, hn, List.getElem?_iterate _ _ _ _ (by omega)]
    rfl

/-- A straight drive leads as far along the heading as its time and speed say. -/
theorem leads_straight (d : Drive K) (hd : 0 < d.duration) (hw : d.w = 0) (dt : TimeStep K)
    (s : Sample K) : Motion.Leads dt [.drive d] s (s.straightOn d.v d.duration) := by
  have h := d.leads_of_pos dt hd s
  rwa [hw, Sample.iterate_euler_straight, steps_mul_stepLength] at h

theorem leads_turn (d : Drive K) (hd : 0 < d.duration) (hv : d.v = 0) (dt : TimeStep K)
    (s : Sample K) :
    Motion.Leads dt [.drive d] s
      ⟨s.time + d.duration, ⟨s.pose.x, s.pose.y, s.pose.theta + d.duration * d.w⟩⟩ := by
  have h := d.leads_of_pos dt hd s
  rwa [hv, Sample.iterate_euler_turn, steps_mul_stepLength] at h

end Drive

section Plans

variable [IsStrictOrderedRing K] (dt : TimeStep K)

theorem Motion.fault_perform (m : Motion K) (s : Sample K) : (m.perform dt s).fault = none := by
  cases m with
  | teleport p => rfl
  | drive d =>
    show (d.perform dt s).fault = none
    by_cases hd : 0 < d.duration
    · rw [d.perform_of_pos dt hd]
    · rw [d.perform_of_not_pos dt hd]
      rfl

/-- In exact numbers every plan can be carried out. -/
theorem Motion.fault_performAll (motions : List (Motion K)) (s : Sample K) :
    (performAll dt motions s).fault = none := by
  induction motions generalizing s with
  | nil => rfl
  | cons m rest ih =>
    rw [performAll_cons (m.fault_perform dt s)]
    exact ih _

theorem Trajectory.build_eq (motions : List (Motion K)) (start : Pose K) :
    build motions start dt =
      .ok (.initial start :: (Motion.performAll dt motions (.initial start)).samples) :=
  build_eq_ok_iff.2 ⟨Motion.fault_performAll dt motions _, rfl⟩

end Plans

end PlanarDrive
