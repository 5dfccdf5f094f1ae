import PlanarDrive.Proofs.EulerSteps
import PlanarDrive.Proofs.ExactSums
import PlanarDrive.RunMetrics

/-!
# The length of the drawn path

An Euler step leads as far as the rover moves in its time, whatever its heading. So in exact
numbers the steps of a drive add up to its speed times its duration, forwards or back, straight or
along an arc, and however many steps it is cut into. What a drawn path is longer than that are its
jumps.
-/

namespace PlanarDrive

section Strides

variable {α : Type} [Scalar α]

/-- Further samples add the strides from the last sample on. -/
theorem Trajectory.strides_append (s : Sample α) (xs ys : List (Sample α)) :
    strides (s :: (xs ++ ys)) = strides (s :: xs) ++ strides (xs.getLastD s :: ys) := by
  have hfirst (s x : Sample α) (zs : List (Sample α)) :
      strides (s :: x :: zs) = stride s x :: strides (x :: zs) := rfl
  induction xs generalizing s with
  | nil => rfl
  | cons x xs ih =>
    rw [List.cons_append, hfirst, hfirst, ih, List.getLastD_cons, List.cons_append]

namespace Motion

/-- The poses in which the motions of a plan begin, when it is carried out from `s`. -/
def origins (dt : TimeStep α) : List (Motion α) → Sample α → List (Pose α)
  | [], _ => []
  | m :: rest, s => s.pose :: origins dt rest ((m.perform dt s).last s)

theorem length_origins (dt : TimeStep α) (motions : List (Motion α)) (s : Sample α) :
    (origins dt motions s).length = motions.length := by
  induction motions generalizing s with
  | nil => rfl
  | cons m rest ih => rw [origins, List.length_cons, ih, List.length_cons]

end Motion

end Strides

variable {K : Type} [Field K] [LinearOrder K] [Exact K]

/-- Exact numbers in which every heading points to a point of the unit circle. -/
class Exact.UnitHeadings (K : Type) [Field K] [LinearOrder K] [Exact K] : Prop where
  cos_mul_self_add (a : K) : Exact.cos a * Exact.cos a + Exact.sin a * Exact.sin a = 1

instance : Exact.UnitHeadings ℝ where
  cos_mul_self_add a := by
    rw [← sq, ← sq]
    exact Real.cos_sq_add_sin_sq a

def Pose.distance (p q : Pose K) : K :=
  Exact.sqrt ((q.x - p.x) * (q.x - p.x) + (q.y - p.y) * (q.y - p.y))

namespace Motion

def driven : Motion K → K
  | drive d => if 0 < d.duration then |d.v| * d.duration else 0
  | teleport _ => 0

def jumped (p : Pose K) : Motion K → K
  | drive _ => 0
  | teleport target => p.distance target

end Motion

variable [IsStrictOrderedRing K]

theorem Motion.getElem?_origins (dt : TimeStep K) {motions : List (Motion K)} {s : Sample K}
    {i : ℕ} {p : Pose K} (hi : (origins dt motions s)[i]? = some p) :
    ∃ t, Leads dt (motions.take i) s t ∧ t.pose = p := by
  induction motions generalizing s i with
  | nil => simp [origins] at hi
  | cons m rest ih =>
    cases i with
    | zero =>
      cases hi
      exact ⟨s, .nil s, rfl⟩
    | succ i =>
      obtain ⟨t, ht, hpose⟩ := ih hi
      have hm : Leads dt [m] s ((m.perform dt s).last s) :=
        leads_singleton_iff.2 ⟨m.fault_perform dt s, rfl⟩
      exact ⟨t, hm.append ht, hpose⟩

variable [Exact.MeasuresDistance K]

omit [IsStrictOrderedRing K] in
theorem Trajectory.stride_eq_distance (s t : Sample K) : stride s t = s.pose.distance t.pose :=
  Exact.MeasuresDistance.hypot_eq _ _

theorem Exact.sqrt_mul_self_of_nonneg {x : K} (hx : 0 ≤ x) : Exact.sqrt (x * x) = x :=
  (mul_self_inj (HasRoots.sqrt_nonneg _ (mul_self_nonneg x)) hx).1
    (HasRoots.sqrt_mul_self _ (mul_self_nonneg x))

variable [Exact.UnitHeadings K]

/-- However a rover is headed, a step leads as far as its time and speed say. -/
theorem Sample.stride_euler (v w : K) {h : K} (hh : 0 ≤ h) (s : Sample K) :
    Trajectory.stride s (s.euler v w h) = |v| * h := by
  have hsquares : (v * Exact.cos s.pose.theta * h) * (v * Exact.cos s.pose.theta * h) +
      (v * Exact.sin s.pose.theta * h) * (v * Exact.sin s.pose.theta * h) =
        (|v| * h) * (|v| * h) := by
    linear_combination v * v * (h * h) * Exact.UnitHeadings.cos_mul_self_add s.pose.theta -
      h * h * abs_mul_abs_self v
  rw [Trajectory.stride_eq_distance, Pose.distance, euler, add_sub_cancel_left, add_sub_cancel_left,
    hsquares, Exact.sqrt_mul_self_of_nonneg (mul_nonneg (abs_nonneg v) hh)]

theorem Sample.strides_iterate_euler (v w : K) {h : K} (hh : 0 ≤ h) (n : ℕ) (s : Sample K) :
    Trajectory.strides (s :: List.iterate (euler v w h) (s.euler v w h) n) =
      List.replicate n (|v| * h) := by
  induction n generalizing s with
  | zero => rfl
  | succ n ih =>
    rw [List.replicate_succ, ← ih (s.euler v w h), ← s.stride_euler v w hh]
    rfl

namespace Motion

/-- The strides of a motion add up to what it drives and jumps. -/
theorem sum_strides_perform (m : Motion K) (dt : TimeStep K) (s : Sample K) :
    (Trajectory.strides (s :: (m.perform dt s).samples)).sum = m.driven + m.jumped s.pose := by
  cases m with
  | teleport p =>
    show (Trajectory.strides [s, ⟨s.time, p⟩]).sum = 0 + s.pose.distance p
    rw [zero_add, ← Trajectory.stride_eq_distance s ⟨s.time, p⟩]
    exact List.sum_singleton
  | drive d =>
    show (Trajectory.strides (s :: (d.perform dt s).samples)).sum = (drive d).driven + 0
    rw [add_zero, driven]
    split_ifs with hd
    · rw [d.perform_of_pos dt hd,
        Sample.strides_iterate_euler d.v d.w (d.stepLength_nonneg dt hd.le), List.sum_replicate,
        nsmul_eq_mul, mul_left_comm, d.steps_mul_stepLength dt]
    · rw [d.perform_of_not_pos dt hd]
      rfl

theorem sum_strides_performAll (motions : List (Motion K)) (dt : TimeStep K) (s : Sample K) :
    (Trajectory.strides (s :: (performAll dt motions s).samples)).sum =
      (motions.map driven).sum + (List.zipWith jumped (origins dt motions s) motions).sum := by
  induction motions generalizing s with
  | nil => exact (add_zero 0).symm
  | cons m rest ih =>
    rw [performAll_cons (m.fault_perform dt s), Trajectory.strides_append, List.sum_append]
    show _ + (Trajectory.strides ((m.perform dt s).last s :: _)).sum = _
    rw [sum_strides_perform, ih, origins, List.zipWith_cons_cons, List.map_cons, List.sum_cons,
      List.sum_cons, add_add_add_comm]

end Motion

/-- A trajectory is built for every plan, and its path is as long as the drives of positive
duration say, at their speeds, and longer by every jump. A jump is measured from where the
trajectory of the motions before it ends. -/
theorem pathLength_eq_driven_add_jumped (motions : List (Motion K)) (start : Pose K) {dt : K}
    (hdt : 0 < dt) :
    ∃ step samples origins, TimeStep.check dt = .ok step ∧
      Trajectory.build motions start step = .ok samples ∧
      origins.length = motions.length ∧
      (∀ (i : ℕ) p, origins[i]? = some p → ∃ earlier last,
        Trajectory.build (motions.take i) start step = .ok earlier ∧
          Trajectory.last earlier = .ok last ∧ last.pose = p) ∧
      Trajectory.pathLength samples =
        (motions.map Motion.driven).sum + (List.zipWith Motion.jumped origins motions).sum := by
  obtain ⟨step, hstep⟩ := TimeStep.check_of_pos hdt
  refine ⟨step, _, Motion.origins step motions (.initial start), hstep,
    Trajectory.build_eq step motions start, Motion.length_origins step motions _,
    fun i p hi => ?_, ?_⟩
  · obtain ⟨t, ht, hpose⟩ := Motion.getElem?_origins step hi
    obtain ⟨earlier, hbuild, hlast⟩ := Trajectory.build_of_leads ht
    refine ⟨earlier, t, hbuild, ?_, hpose⟩
    rw [Trajectory.last, hlast]
    rfl
  · rw [Trajectory.pathLength, Sum.total_eq_sum]
    exact Motion.sum_strides_performAll motions step (.initial start)

/-- Back, a jump over three and four, an arc, and a drive of no duration. -/
theorem pathLength_eq_driven_add_jumped_backAndOver :
    (0 : ℝ) < 0.5 ∧ ∃ step samples, TimeStep.check (0.5 : ℝ) = .ok step ∧
      Trajectory.build [.drive ⟨-2, 0, 2⟩, .teleport ⟨-1, 4, 1⟩, .drive ⟨1, 1, 3⟩,
        .drive ⟨7, 0, -1⟩] ⟨0, 0, 0⟩ step = .ok samples ∧
      Trajectory.pathLength samples = 12 := by
  have hdt : (0 : ℝ) < 0.5 := by norm_num
  obtain ⟨step, samples, origins, hstep, hbuild, hlength, horigins, hpath⟩ :=
    pathLength_eq_driven_add_jumped [.drive ⟨-2, 0, 2⟩, .teleport ⟨-1, 4, 1⟩, .drive ⟨1, 1, 3⟩,
      .drive ⟨7, 0, -1⟩] ⟨0, 0, 0⟩ hdt
  obtain ⟨p, q, r, u, rfl⟩ := List.length_eq_four.1 hlength
  obtain ⟨earlier, last, hearlier, hlast, rfl⟩ := horigins 1 q rfl
  obtain ⟨samples', hbuild', hlast'⟩ := Trajectory.build_of_leads
    ((⟨-2, 0, 2⟩ : Drive ℝ).leads_straight two_pos rfl step (.initial ⟨0, 0, 0⟩))
  have hpose : last.pose = ⟨-4, 0, 0⟩ := by
    obtain rfl : samples' = earlier := Except.ok.inj (hbuild'.symm.trans hearlier)
    rw [Trajectory.last, hlast'] at hlast
    rw [← Except.ok.inj hlast]
    norm_num [Sample.straightOn, Exact.cos, Exact.sin]
  have hjump : (⟨-4, 0, 0⟩ : Pose ℝ).distance ⟨-1, 4, 1⟩ = 5 := by
    have h := Exact.sqrt_mul_self_of_nonneg (by norm_num : (0 : ℝ) ≤ 5)
    norm_num [Pose.distance] at h ⊢
    exact h
  refine ⟨hdt, step, samples, hstep, hbuild, hpath.trans ?_⟩
  norm_num [Motion.driven, Motion.jumped, hpose, hjump]

end PlanarDrive
