import PlanarDrive.Proofs.CallLimit
import PlanarDrive.Proofs.FreeSpace
import PlanarDrive.Proofs.PlanMeaning

/-!
# Driving up to what was read

A rover that drives straight on, less far than its sensor has read, stays on the beam of that
reading, and the beam from its new place is the rest of the old one. In exact numbers the next
reading is therefore what is left of the first: exactly so when that one ended at an obstacle, and
at least so when it ended at the range of the sensor.
-/

namespace PlanarDrive

variable {K : Type} [Field K] [LinearOrder K]

/-- Two readings on one beam, the second from a place that the first one has passed. -/
theorem Sensor.Sound.rest [IsStrictOrderedRing K] {obstacles : List (Obstacle K)}
    {ray rest : Ray K} {range first second d : K} (hfirst : Sound obstacles ray range first)
    (hsecond : Sound obstacles rest range second)
    (hpoint : ∀ u, rest.point u = ray.point (d + u)) (h0 : 0 ≤ d) (hd : d < first) :
    first - d ≤ second ∧ (first < range → second = first - d) := by
  have hle : first - d ≤ second := by
    by_contra! hlt
    have hreach := hfirst.le_range
    obtain ⟨o, ho, hon⟩ := hsecond.surface (by linarith)
    rw [hpoint] at hon
    exact hfirst.free (d + second) (add_nonneg h0 hsecond.nonneg) (by linarith) o ho hon.covers
  refine ⟨hle, fun hshort => le_antisymm ?_ hle⟩
  by_contra! hlt
  obtain ⟨o, ho, hon⟩ := hfirst.surface hshort
  apply hsecond.free (first - d) (by linarith) hlt o ho
  rw [hpoint, add_sub_cancel]
  exact hon.covers

variable [Exact K]

namespace Pose

/-- After a move straight on, the beam ahead is the rest of the beam before the move. -/
theorem point_ahead_displace (p : Pose K) (d u : K) :
    (Op.moveForward.displace d p).ahead.point u = p.ahead.point (d + u) := by
  simp only [Op.displace, ahead, Ray.point, Prod.mk.injEq]
  exact ⟨by ring, by ring⟩

theorem isClear_ahead_displace {p : Pose K} (h : p.ahead.IsClear) (d : K) :
    (Op.moveForward.displace d p).ahead.IsClear :=
  ⟨h.unit, h.dx, h.dy⟩

end Pose

namespace Session

variable {s : Session K}

variable [IsStrictOrderedRing K]

/-- Within the limit of calls an operation is carried out, and displaces the rover as it says. -/
theorem steer_displaces (hcalls : (s.calls + 1 : Nat) ≤ s.setup.maxCalls)
    (hl : 0 < s.setup.speeds.linear) (ha : 0 < s.setup.speeds.angular) (op : Op) (arg : K) :
    ∃ t, s.steer op (.ok arg) = (.ok (), t) ∧ t.setup = s.setup ∧ t.calls = s.calls + 1 ∧
      t.live = ⟨s.live.time + op.time arg s.setup.speeds, op.displace arg s.pose⟩ := by
  obtain ⟨d, hdrive, hleads⟩ := op.command_leads hl ha arg
  have hlead := hleads s.dt s.live
  obtain ⟨hsteer, -⟩ := (s.steer_eq op arg).resolve_right fun h => by omega
  rw [hsteer, hdrive]
  cases d with
  | none => exact ⟨_, rfl, rfl, rfl, hlead.last⟩
  | some d =>
    obtain ⟨hfault, hlast⟩ := Motion.leads_singleton_iff.1 hlead
    exact ⟨_, s.record_of_performs hfault _, rfl, rfl, hlast⟩

/-- The sensor of a rover that no obstacle covers has a reading, which is sound. -/
theorem look_sound [Exact.HasRoots K] (hcalls : (s.calls + 1 : Nat) ≤ s.setup.maxCalls)
    (hclear : s.pose.ahead.IsClear) (hshape : ∀ o ∈ s.setup.obstacles, o.IsShape)
    (hout : ∀ o ∈ s.setup.obstacles, ¬ o.Covers (s.pose.x, s.pose.y))
    (hrange : 0 ≤ s.setup.range) :
    ∃ r, s.look = (.ok r, s.tick) ∧
      Sensor.Sound s.setup.obstacles s.pose.ahead s.setup.range r := by
  obtain ⟨r, hr, hsound⟩ := Sensor.beam_sound hclear hshape hout hrange
  refine ⟨r, ?_, hsound⟩
  rw [look, counted_of_le hcalls]
  exact congrArg (·, s.tick) hr

end Session

/-- A rover that no obstacle covers reads some distance. If it then drives straight on for less than
that, no obstacle covers it there either, and it reads again: the rest of the distance if the first
reading was short of the range, and otherwise something between the rest and the range. -/
theorem move_leaves_rest_of_reading [IsStrictOrderedRing K] [Exact.HasRoots K] {s : Session K}
    (hclear : s.pose.ahead.IsClear) (hshape : ∀ o ∈ s.setup.obstacles, o.IsShape)
    (hout : ∀ o ∈ s.setup.obstacles, ¬ o.Covers (s.pose.x, s.pose.y))
    (hrange : 0 ≤ s.setup.range) (hl : 0 < s.setup.speeds.linear)
    (ha : 0 < s.setup.speeds.angular) (hcalls : (s.calls + 3 : Nat) ≤ s.setup.maxCalls) :
    ∃ r, s.look.1 = .ok r ∧ ∀ d, 0 ≤ d → d < r →
      ∃ t r', s.look.2.steer .moveForward (.ok d) = (.ok (), t) ∧ t.look.1 = .ok r' ∧
        (r < s.setup.range → r' = r - d) ∧
        (r = s.setup.range → r - d ≤ r' ∧ r' ≤ s.setup.range) ∧
        ∀ o ∈ s.setup.obstacles, ¬ o.Covers (t.pose.x, t.pose.y) := by
  obtain ⟨r, hlook, hfirst⟩ :=
    Session.look_sound (by omega) hclear hshape hout hrange
  refine ⟨r, by rw [hlook], fun d h0 hd => ?_⟩
  rw [hlook]
  obtain ⟨t, hsteer, hsetup, htcalls, hlive⟩ := Session.steer_displaces (s := s.tick)
    (by rw [Session.calls_tick, Session.setup_tick]; omega) hl ha .moveForward d
  have hpose : t.pose = Op.moveForward.displace d s.pose := congrArg Sample.pose hlive
  have hthere : ∀ o ∈ s.setup.obstacles, ¬ o.Covers (t.pose.x, t.pose.y) := by
    rw [hpose]
    exact hfirst.free d h0 hd
  obtain ⟨r', hagain, hsecond⟩ := Session.look_sound (s := t)
    (by rw [htcalls, hsetup, Session.calls_tick, Session.setup_tick]; omega)
    (by rw [hpose]; exact Pose.isClear_ahead_displace hclear d)
    (by rwa [hsetup]) (by rwa [hsetup]) (by rwa [hsetup])
  rw [hsetup, hpose] at hsecond
  obtain ⟨hle, hexact⟩ := hfirst.rest hsecond (s.pose.point_ahead_displace d) h0 hd
  exact ⟨t, r', hsteer, by rw [hagain], hexact, fun _ => ⟨hle, hsecond.le_range⟩, hthere⟩

/-- A rover two metres in front of a disc, with a wall to its left. -/
noncomputable def beforeDisc : Session ℝ where
  setup := ⟨[.circle 3.0 0 1, .rectangle 0 2.0 2.0 1], ⟨0, 0, 0⟩, 1, 5.0, 3, ⟨0.25, 45.0⟩⟩
  dt := ⟨1, rfl, by norm_num⟩
  live := ⟨0, ⟨0, 0, 0⟩⟩
  motions := []
  history := []
  calls := 0

theorem move_leaves_rest_of_reading_beforeDisc :
    beforeDisc.look.1 = .ok 2 ∧
      ∃ t, beforeDisc.look.2.steer .moveForward (.ok 1.5) = (.ok (), t) ∧ t.look.1 = .ok 0.5 ∧
        ∀ o ∈ beforeDisc.setup.obstacles, ¬ o.Covers (t.pose.x, t.pose.y) := by
  have hcos : Exact.cos (0 : ℝ) = 1 := Real.cos_zero
  have hsin : Exact.sin (0 : ℝ) = 0 := Real.sin_zero
  have hclear : beforeDisc.pose.ahead.IsClear := Pose.isClear_ahead hcos hsin
  have hshape : ∀ o ∈ beforeDisc.setup.obstacles, o.IsShape := by
    norm_num [beforeDisc, Obstacle.IsShape]
  have hout : ∀ o ∈ beforeDisc.setup.obstacles,
      ¬ o.Covers (beforeDisc.pose.x, beforeDisc.pose.y) := by
    norm_num [beforeDisc, Session.pose, Obstacle.Covers]
  have hrange : 0 ≤ beforeDisc.setup.range := by norm_num [beforeDisc]
  have hl : 0 < beforeDisc.setup.speeds.linear := by norm_num [beforeDisc]
  have ha : 0 < beforeDisc.setup.speeds.angular := by norm_num [beforeDisc]
  obtain ⟨r, hr, hmove⟩ :=
    move_leaves_rest_of_reading hclear hshape hout hrange hl ha (by decide)
  have htwo : r = 2 := by
    obtain ⟨r₂, hlook, hsound⟩ := Session.look_sound (by decide) hclear hshape hout hrange
    rw [hlook] at hr
    cases hr
    have hpoint (u : ℝ) : beforeDisc.pose.ahead.point u = (u, 0) := by
      simp [beforeDisc, Session.pose, Pose.ahead, Ray.point, hcos, hsin]
    have hle : r ≤ 2 := by
      by_contra! hlt
      apply hsound.free 2 (by norm_num) hlt (.circle 3.0 0 1) (by simp [beforeDisc])
      rw [hpoint]
      norm_num [Obstacle.Covers]
    obtain ⟨o, ho, hon⟩ := hsound.surface (by norm_num [beforeDisc]; linarith)
    simp only [beforeDisc, List.mem_cons, List.not_mem_nil, or_false] at ho
    rw [hpoint] at hon
    rcases ho with rfl | rfl
    · norm_num [Obstacle.OnSurface] at hon
      rcases hon with hfar | hnear <;> linarith
    · norm_num [Obstacle.OnSurface] at hon
  subst htwo
  obtain ⟨t, r', hsteer, hlook, hexact, -, hthere⟩ := hmove 1.5 (by norm_num) (by norm_num)
  refine ⟨hr, t, hsteer, ?_, hthere⟩
  rw [hlook, hexact (by norm_num [beforeDisc])]
  norm_num

end PlanarDrive
