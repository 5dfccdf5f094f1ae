import PlanarDrive.Proofs.EulerSteps

/-!
# How far a drive strays from its arc

At constant speed and turn rate a rover moves along a circle. The Euler steps of a drive turn it by
exactly as much, but each of them leaves the circle along a tangent. Over the real numbers a step
strays by no more than half the square of the angle it turns by, measured in radii of the circle, so
a drive strays by no more than the sum over its steps: twice as many steps halve the bound.

Positions are complex numbers here, in which a turn is a multiplication.
-/

namespace PlanarDrive

open Complex

/-- On the unit circle, an arc from 1 and the tangent of its length are apart by at most half the
square of the length. -/
theorem norm_arc_sub_tangent_le (x : ℝ) : ‖exp (I * x) - 1 - I * x‖ ≤ x ^ 2 / 2 := by
  wlog h0 : 0 ≤ x
  · have hconj : exp (I * (-x : ℝ)) - 1 - I * (-x : ℝ) =
        (starRingEnd ℂ) (exp (I * x) - 1 - I * x) := by
      simp [← exp_conj]
    have h := this (-x) (neg_nonneg.2 (le_of_not_ge h0))
    rwa [hconj, norm_conj, neg_sq] at h
  have hgap (s : ℝ) :
      HasDerivAt (fun s : ℝ => exp (I * s) - 1 - I * s) (I * (exp (I * s) - 1)) s := by
    have hlinear : HasDerivAt (fun s : ℝ => I * (s : ℂ)) (I * 1) s :=
      (hasDerivAt_id s).ofReal_comp.const_mul I
    exact ((hlinear.cexp.sub_const 1).sub hlinear).congr_deriv (by ring)
  have hbound (s : ℝ) : HasDerivAt (fun s : ℝ => s ^ 2 / 2) s s :=
    ((hasDerivAt_pow 2 s).div_const 2).congr_deriv (by ring)
  refine image_norm_le_of_norm_deriv_right_le_deriv_boundary (a := 0) (b := x)
    (fun s _ => (hgap s).continuousAt.continuousWithinAt) (fun s _ => (hgap s).hasDerivWithinAt)
    (by simp) hbound (fun s hs => ?_) (Set.right_mem_Icc.2 h0)
  rw [norm_mul, norm_I, one_mul]
  exact Real.norm_exp_I_mul_ofReal_sub_one_le.trans_eq (Real.norm_of_nonneg hs.1)

/-- The point of the unit circle in the direction of a heading. -/
theorem exp_heading (x : ℝ) : exp (I * x) = ⟨Real.cos x, Real.sin x⟩ := by
  rw [mul_comm]
  exact Complex.ext (exp_ofReal_mul_I_re x) (exp_ofReal_mul_I_im x)

namespace Pose

def position (p : Pose ℝ) : ℂ :=
  ⟨p.x, p.y⟩

theorem norm_position_sub (p q : Pose ℝ) :
    ‖p.position - q.position‖ = Real.sqrt ((p.x - q.x) ^ 2 + (p.y - q.y) ^ 2) := by
  rw [norm_eq_sqrt_sq_add_sq]
  rfl

/-- The pose after a time of moving at speed `v` and turning at rate `w`, both constant. -/
noncomputable def alongArc (v w t : ℝ) (p : Pose ℝ) : Pose ℝ :=
  ⟨p.x + v / w * (Real.sin (p.theta + w * t) - Real.sin p.theta),
    p.y - v / w * (Real.cos (p.theta + w * t) - Real.cos p.theta), p.theta + w * t⟩

theorem alongArc_zero (v w : ℝ) (p : Pose ℝ) : p.alongArc v w 0 = p := by
  simp [alongArc]

/-- An arc goes on from where it has got to. -/
theorem alongArc_add (v w s t : ℝ) (p : Pose ℝ) :
    p.alongArc v w (s + t) = (p.alongArc v w s).alongArc v w t := by
  have hangle : p.theta + w * (s + t) = p.theta + w * s + w * t := by ring
  simp only [alongArc, hangle, Pose.mk.injEq]
  exact ⟨by ring, by ring, trivial⟩

/-- The position turns about the centre of the circle, which is a quarter turn to the left of the
heading. -/
theorem position_alongArc (v w t : ℝ) (p : Pose ℝ) :
    (p.alongArc v w t).position - p.position =
      (v / w : ℝ) * (-I * exp (I * p.theta) * (exp (I * (w * t : ℝ)) - 1)) := by
  have hturn : exp (I * p.theta) * (exp (I * (w * t : ℝ)) - 1) =
      exp (I * (p.theta + w * t : ℝ)) - exp (I * p.theta) := by
    rw [mul_sub, ← exp_add, mul_one, ← mul_add, ofReal_add]
  rw [mul_assoc (-I), hturn, exp_heading, exp_heading]
  apply Complex.ext <;> simp [position, alongArc]
  ring

end Pose

namespace Sample

variable {v w h : ℝ}

theorem position_euler (s : Sample ℝ) :
    (s.euler v w h).pose.position - s.pose.position = (v * h : ℝ) * exp (I * s.pose.theta) := by
  rw [exp_heading]
  apply Complex.ext <;> simp [Pose.position, euler, Exact.cos, Exact.sin] <;> ring

/-- From one pose, a step and an arc of the same length lead apart by at most half the square of
the angle, measured in radii. -/
theorem norm_euler_sub_alongArc_le (hw : w ≠ 0) (s : Sample ℝ) :
    ‖(s.euler v w h).pose.position - (s.pose.alongArc v w h).position‖ ≤ |v| * |w| * h ^ 2 / 2 := by
  have hgap : (s.euler v w h).pose.position - (s.pose.alongArc v w h).position =
      (v / w : ℝ) * (I * exp (I * s.pose.theta) *
        (exp (I * (w * h : ℝ)) - 1 - I * (w * h : ℝ))) := by
    rw [← sub_sub_sub_cancel_right _ _ s.pose.position, position_euler, Pose.position_alongArc]
    have hradius : ((v / w : ℝ) : ℂ) * (w * h : ℝ) = (v * h : ℝ) := by
      rw [← ofReal_mul, ← mul_assoc, div_mul_cancel₀ v hw]
    linear_combination exp (I * s.pose.theta) * ((v / w : ℝ) * (w * h : ℝ) * I_sq - hradius)
  have hunit : ‖I * exp (I * s.pose.theta)‖ = 1 := by
    rw [norm_mul, norm_I, one_mul, norm_exp_I_mul_ofReal]
  calc ‖(s.euler v w h).pose.position - (s.pose.alongArc v w h).position‖
      = |v / w| * ‖exp (I * (w * h : ℝ)) - 1 - I * (w * h : ℝ)‖ := by
        rw [hgap, norm_mul, norm_mul, hunit, one_mul, norm_real, Real.norm_eq_abs]
    _ ≤ |v / w| * ((w * h) ^ 2 / 2) :=
        mul_le_mul_of_nonneg_left (norm_arc_sub_tangent_le _) (abs_nonneg _)
    _ = |v| * |w| * h ^ 2 / 2 := by
        rw [abs_div, mul_pow, ← sq_abs w]
        field_simp

/-- Every step turns the rover by as much as its arc and adds no more than its own gap. -/
theorem iterate_euler_near_arc (hw : w ≠ 0) (n : ℕ) (s : Sample ℝ) :
    ((euler v w h)^[n] s).pose.theta = s.pose.theta + w * (n * h) ∧
      ‖((euler v w h)^[n] s).pose.position - (s.pose.alongArc v w (n * h)).position‖ ≤
        n * (|v| * |w| * h ^ 2 / 2) := by
  induction n with
  | zero => simp [Pose.alongArc_zero]
  | succ n ih =>
    obtain ⟨hangle, hgap⟩ := ih
    have htime : ((n + 1 : ℕ) : ℝ) * h = n * h + h := by
      push_cast
      ring
    rw [Function.iterate_succ_apply', htime, Pose.alongArc_add]
    set q := (euler v w h)^[n] s
    set p := s.pose.alongArc v w (n * h)
    -- at one heading, arcs of one length lead equally far from where they begin
    have harc : (q.pose.alongArc v w h).position - q.pose.position =
        (p.alongArc v w h).position - p.position := by
      rw [Pose.position_alongArc, Pose.position_alongArc, hangle]
      rfl
    refine ⟨?_, ?_⟩
    · show q.pose.theta + w * h = _
      rw [hangle]
      ring
    · calc ‖(q.euler v w h).pose.position - (p.alongArc v w h).position‖
          = ‖(q.pose.position - p.position) +
              ((q.euler v w h).pose.position - (q.pose.alongArc v w h).position)‖ := by
            congr 1
            linear_combination harc
        _ ≤ n * (|v| * |w| * h ^ 2 / 2) + |v| * |w| * h ^ 2 / 2 :=
            norm_add_le_of_le hgap (norm_euler_sub_alongArc_le hw q)
        _ = ((n + 1 : ℕ) : ℝ) * (|v| * |w| * h ^ 2 / 2) := by
            push_cast
            ring

end Sample

/-- The steps of a drive together stray by half the arc times the whole angle, shared among the
steps. -/
theorem Drive.near_arc (d : Drive ℝ) (hw : d.w ≠ 0) (step : TimeStep ℝ) (s : Sample ℝ) :
    let last := ((Sample.euler d.v d.w (d.stepLength step))^[d.steps step] s).pose
    last.theta = s.pose.theta + d.w * d.duration ∧
      ‖last.position - (s.pose.alongArc d.v d.w d.duration).position‖ ≤
        |d.v| * |d.w| * d.duration ^ 2 / (2 * d.steps step) := by
  have hn : (d.steps step : ℝ) ≠ 0 := Nat.cast_ne_zero.2 (d.steps_pos step).ne'
  obtain ⟨hangle, hgap⟩ :=
    Sample.iterate_euler_near_arc (v := d.v) (h := d.stepLength step) hw (d.steps step) s
  rw [d.steps_mul_stepLength step] at hangle hgap
  refine ⟨hangle, hgap.trans_eq ?_⟩
  rw [stepLength]
  field_simp

theorem Drive.cast_steps (d : Drive ℝ) (step : TimeStep ℝ) :
    (d.steps step : ℝ) = (max 1 (Exact.halfEven (d.duration / step.value)) : ℤ) := by
  have h : ((d.steps step : ℕ) : ℤ) = max 1 (Exact.halfEven (d.duration / step.value)) := by
    show ((max 1 (Exact.halfEven (d.duration / step.value)).toNat : ℕ) : ℤ) = _
    omega
  rw [← h, Int.cast_natCast]

/-- The trajectory of a drive of positive duration that turns ends at exactly the heading of
the arc, and at a distance from the end of the arc that the number of steps divides. -/
theorem arc_ends_near_circle (d : Drive ℝ) (hd : 0 < d.duration) (hw : d.w ≠ 0) (start : Pose ℝ)
    {dt : ℝ} (hdt : 0 < dt) :
    ∃ step samples final, TimeStep.check dt = .ok step ∧
      Trajectory.build [.drive d] start step = .ok samples ∧
      Trajectory.last samples = .ok final ∧
      final.pose.theta = start.theta + d.w * d.duration ∧
      Real.sqrt
          ((final.pose.x - (start.x + d.v / d.w *
              (Real.sin (start.theta + d.w * d.duration) - Real.sin start.theta))) ^ 2 +
            (final.pose.y - (start.y - d.v / d.w *
              (Real.cos (start.theta + d.w * d.duration) - Real.cos start.theta))) ^ 2) ≤
        |d.v| * |d.w| * d.duration ^ 2 /
          (2 * (max 1 (Exact.halfEven (d.duration / dt)) : ℤ)) := by
  obtain ⟨step, hstep⟩ := TimeStep.check_of_pos hdt
  obtain ⟨samples, hbuild, hlast⟩ :=
    Trajectory.build_of_leads (d.leads_of_pos step hd (.initial start))
  obtain ⟨hangle, hgap⟩ := d.near_arc hw step (.initial start)
  rw [Pose.norm_position_sub, d.cast_steps, TimeStep.check_eq_ok_iff.1 hstep] at hgap
  refine ⟨step, samples, _, hstep, hbuild, ?_, hangle, hgap⟩
  rw [Trajectory.last, hlast]
  rfl

theorem halfEven_four : Exact.halfEven (4 : ℝ) = 4 := by
  simp [Exact.halfEven]

/-- A quarter of a circle in four steps. -/
theorem arc_ends_near_circle_quarter :
    ∃ step samples final, TimeStep.check (0.25 : ℝ) = .ok step ∧
      Trajectory.build [.drive ⟨1, Real.pi / 2, 1⟩] ⟨0, 0, 0⟩ step = .ok samples ∧
      Trajectory.last samples = .ok final ∧ final.pose.theta = Real.pi / 2 ∧
      Real.sqrt ((final.pose.x - 2 / Real.pi) ^ 2 + (final.pose.y - 2 / Real.pi) ^ 2) ≤
        Real.pi / 16 := by
  have hrate : Real.pi / 2 ≠ 0 := (div_pos Real.pi_pos two_pos).ne'
  obtain ⟨step, samples, final, hstep, hbuild, hlast, hangle, hgap⟩ :=
    arc_ends_near_circle ⟨1, Real.pi / 2, 1⟩ one_pos hrate ⟨0, 0, 0⟩
      (by norm_num : (0 : ℝ) < 0.25)
  have hcount : max 1 (Exact.halfEven ((1 : ℝ) / 0.25)) = 4 := by
    rw [show (1 : ℝ) / 0.25 = 4 by norm_num, halfEven_four]
    rfl
  refine ⟨step, samples, final, hstep, hbuild, hlast, ?_, ?_⟩
  · simpa using hangle
  · rw [hcount] at hgap
    convert hgap using 1
    · simp
    · rw [abs_of_pos (div_pos Real.pi_pos two_pos)]
      norm_num
      ring

end PlanarDrive
