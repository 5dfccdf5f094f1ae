import PlanarDrive.Proofs.FreeSpace
import PlanarDrive.Proofs.PlanMeaning
import PlanarDrive.Proofs.Playback
import PlanarDrive.Session.Script

/-!
# Creeping toward a wall

A creeping rover moves only after it has read more free space than it needs for the move. So it
stays outside all obstacles, also in the middle of a move, and what is left of the space that
it has read bounds the next reading from below.
-/

namespace PlanarDrive

namespace Session

/-- What holds before every look of a creeping script decides how the script ends. -/
theorem creep_rule {α : Type} [Scalar α] {stop step : α} {I : Session α → Prop}
    {P : Except (Fault α) Unit × Session α → Prop}
    (hlook : ∀ s f t, I s → s.look = (.error f, t) → P (.error f, t))
    (hstop : ∀ s d t, I s → s.look = (.ok d, t) → d < stop → P (.ok (), t))
    (hmove : ∀ s d t u, I s → s.look = (.ok d, t) → ¬ d < stop →
      t.steer .moveForward (.ok step) = (.ok (), u) → I u)
    (hfail : ∀ s d t f u, I s → s.look = (.ok d, t) → ¬ d < stop →
      t.steer .moveForward (.ok step) = (.error f, u) → P (.error f, u))
    {s : Session α} (hs : I s) : P (s.creep stop step) := by
  fun_induction creep stop step s with
  | case1 s f t h => exact hlook s f t hs h
  | case2 s d t h hd => exact hstop s d t hs h hd
  | case3 s d t h hd u hu ih => exact ih (hmove s d t u hs h hd hu)
  | case4 s d t h hd f u hu => exact hfail s d t f u hs h hd hu

end Session

variable {K : Type} [Field K] [LinearOrder K]

def Clear (obstacles : List (Obstacle K)) (x distance : K) : Prop :=
  ∀ u, 0 ≤ u → u < distance → ∀ o ∈ obstacles, ¬ o.Covers (x + u, 0)

structure Sample.Safe (obstacles : List (Obstacle K)) (p : Sample K) : Prop where
  y : p.pose.y = 0
  theta : p.pose.theta = 0
  outside : ∀ o ∈ obstacles, ¬ o.Covers (p.pose.x, p.pose.y)

variable [Exact K]

section Axis

variable (hcos : Exact.cos (0 : K) = 1) (hsin : Exact.sin (0 : K) = 0)
  {obstacles : List (Obstacle K)} {p : Sample K} (h : p.Safe obstacles)
include hcos hsin h

theorem Sample.Safe.straightOn_eq (v t : K) :
    p.straightOn v t = ⟨p.time + t, ⟨p.pose.x + t * v, 0, 0⟩⟩ := by
  simp [straightOn, h.y, h.theta, hcos, hsin]

theorem Sample.Safe.point_ahead (u : K) : p.pose.ahead.point u = (p.pose.x + u, 0) := by
  simp [Pose.ahead, Ray.point, h.y, h.theta, hcos, hsin]

/-- The reading at a safe sample is the longest way within the range that is clear. -/
theorem Sample.Safe.front [IsStrictOrderedRing K] [Exact.HasRoots K]
    (hshape : ∀ o ∈ obstacles, o.IsShape) {range : K} (hrange : 0 ≤ range) :
    ∃ d, Sensor.front obstacles p.pose range = .ok d ∧ d ≤ range ∧
      Clear obstacles p.pose.x d ∧ ∀ a ≤ range, Clear obstacles p.pose.x a → a ≤ d := by
  have hahead : p.pose.ahead.IsClear :=
    Pose.isClear_ahead (by rw [h.theta, hcos]) (by rw [h.theta, hsin])
  obtain ⟨d, hd, hsound⟩ := Sensor.beam_sound hahead hshape h.outside hrange
  refine ⟨d, hd, hsound.le_range, fun u h0 hu => ?_, fun a ha hclear => ?_⟩
  · rw [← h.point_ahead hcos hsin]
    exact hsound.free u h0 hu
  · by_contra! hlt
    obtain ⟨o, ho, hon⟩ := hsound.surface (hlt.trans_le ha)
    refine hclear d hsound.nonneg hlt o ho ?_
    rw [← h.point_ahead hcos hsin]
    exact hon.covers

end Axis

def creepDrive (speed : K) : Drive K :=
  ⟨speed, 0, 0.1 / speed⟩

section Move

variable [IsStrictOrderedRing K] {speed : K} (hspeed : 0 < speed)
include hspeed

omit [Exact K] in
theorem creepDrive_duration_pos : 0 < (creepDrive speed).duration :=
  div_pos (by norm_num) hspeed

theorem straight_eq_creepDrive : Drive.straight 0.1 speed = .ok (some (creepDrive speed)) := by
  have hsign : Scalar.copySign speed (0.1 : K) = if (0.1 : K) < 0 then -|speed| else |speed| := rfl
  rw [Drive.straight_eq hspeed, hsign]
  norm_num [creepDrive, abs_of_pos hspeed]

variable (hcos : Exact.cos (0 : K) = 1) (hsin : Exact.sin (0 : K) = 0)
  {obstacles : List (Obstacle K)} {p : Sample K} (h : p.Safe obstacles) (dt : TimeStep K)
include hcos hsin h

/-- A move leaves samples on the way, each of them farther than the ones before it. -/
theorem Sample.Safe.perform_creepDrive :
    ∃ samples, (creepDrive speed).perform dt p = ⟨samples, none⟩ ∧
      (∀ q ∈ samples, ∃ u t, 0 ≤ u ∧ u ≤ 0.1 ∧ q = ⟨t, ⟨p.pose.x + u, 0, 0⟩⟩) ∧
      samples.Pairwise (fun q r => q.pose.x ≤ r.pose.x) ∧
      ((creepDrive speed).perform dt p).last p =
        ⟨p.time + 0.1 / speed, ⟨p.pose.x + 0.1, 0, 0⟩⟩ := by
  have hd := creepDrive_duration_pos hspeed
  have hstep := (creepDrive speed).stepLength_nonneg dt hd.le
  have hlead := Drive.leads_straight (creepDrive speed) hd rfl dt p
  refine ⟨_, Drive.perform_straight _ dt hd rfl p, fun q hq => ?_, ?_, ?_⟩
  · obtain ⟨i, hi, rfl⟩ := List.mem_map.1 hq
    have hle := (creepDrive speed).mul_stepLength_le dt hd.le (List.mem_range.1 hi)
    refine ⟨_, _, ?_, ?_, h.straightOn_eq hcos hsin _ _⟩
    · exact mul_nonneg (mul_nonneg (Nat.cast_nonneg _) hstep) hspeed.le
    · exact (le_div_iff₀ hspeed).1 hle
  · rw [List.pairwise_map]
    refine List.pairwise_lt_range.imp fun hij => ?_
    simp only [h.straightOn_eq hcos hsin]
    -- a later sample is more steps away
    have hcount : ((_ + 1 : ℕ) : K) ≤ (_ + 1 : ℕ) := Nat.cast_le.2 (Nat.succ_le_succ hij.le)
    exact add_le_add_right (mul_le_mul_of_nonneg_right
      (mul_le_mul_of_nonneg_right hcount hstep) hspeed.le) _
  · refine (Motion.leads_singleton_iff.1 hlead).2.trans ?_
    rw [h.straightOn_eq hcos hsin, creepDrive, div_mul_cancel₀ _ hspeed.ne']

end Move

/-- A session that has been put at the origin and has crept from there. Once it has moved, the
reading before the move left most of a stopping distance clear. -/
structure Session.Crept (setup : Setup K) (s : Session K) : Prop where
  setup_eq : s.setup = setup
  inStep : s.InStep
  head : s.replay.samples.head? = some ⟨0, ⟨0, 0, 0⟩⟩
  safe : ∀ p ∈ s.replay.samples, p.Safe setup.obstacles
  forward : s.replay.samples.Pairwise fun p q => p.pose.x ≤ q.pose.x
  le_live : ∀ p ∈ s.replay.samples, p.pose.x ≤ s.live.pose.x
  live_safe : s.live.Safe setup.obstacles
  clear : (∃ e ∈ s.history, ∃ arg : K, e.label = (Op.moveForward.command arg).text) →
    0.4 ≤ setup.range ∧ Clear setup.obstacles s.live.pose.x 0.4

namespace Session

def afterMove (s : Session K) : Session K :=
  s.entered (s.carried (.drive (creepDrive s.setup.speeds.linear)))
    (Op.moveForward.command (0.1 : K)).text

variable {setup : Setup K} {s : Session K} (h : s.Crept setup)
include h

theorem Crept.tick : s.tick.Crept setup :=
  ⟨h.setup_eq, h.inStep, h.head, h.safe, h.forward, h.le_live, h.live_safe, h.clear⟩

variable [IsStrictOrderedRing K] (hcos : Exact.cos (0 : K) = 1) (hsin : Exact.sin (0 : K) = 0)
include hcos hsin

/-- The next look reads the longest way that is clear, unless it is one call too many. -/
theorem Crept.look [Exact.HasRoots K] (hshape : ∀ o ∈ setup.obstacles, o.IsShape)
    (hrange : 0 ≤ setup.range) :
    (∃ d, s.look = (.ok d, s.tick) ∧ d ≤ setup.range ∧
      Clear setup.obstacles s.live.pose.x d ∧
      ∀ a ≤ setup.range, Clear setup.obstacles s.live.pose.x a → a ≤ d) ∨
    s.look = (.error (.callLimit setup.maxCalls), s.tick) := by
  obtain ⟨d, hd, hspec⟩ := h.live_safe.front hcos hsin hshape hrange
  rcases s.look_eq with ⟨hl, -⟩ | ⟨hl, -⟩
  · rw [h.setup_eq, Session.pose, hd] at hl
    exact .inl ⟨d, hl, hspec⟩
  · rw [h.setup_eq] at hl
    exact .inr hl

variable (hspeed : 0 < setup.speeds.linear)
include hspeed

/-- A reading of a stopping distance or more is clear for a move, and for most of the next
stopping distance after it. -/
theorem Crept.move {d : K} (hd : 0.5 ≤ d) (hrange : d ≤ setup.range)
    (hclear : Clear setup.obstacles s.live.pose.x d) : s.afterMove.Crept setup := by
  obtain rfl := h.setup_eq
  obtain ⟨samples, hperform, hway, hforward, hlast⟩ :=
    h.live_safe.perform_creepDrive hspeed hcos hsin s.dt
  have hfault : ((Motion.drive (creepDrive s.setup.speeds.linear)).perform s.dt s.live).fault =
      none := congrArg Trace.fault hperform
  have hsafe (u t : K) (h0 : 0 ≤ u) (hu : u ≤ 0.1) :
      Sample.Safe s.setup.obstacles ⟨t, ⟨s.live.pose.x + u, 0, 0⟩⟩ :=
    ⟨rfl, rfl, hclear u h0 (by linarith)⟩
  have hext : s.afterMove.Extends s := ⟨rfl, rfl, List.prefix_append _ _⟩
  have hreplay : s.afterMove.replay = ⟨s.replay.samples ++ samples, none⟩ := by
    rw [replay_of_motions_eq_append h.inStep hext rfl, hfault]
    exact congrArg (fun t : Trace K => Trace.mk (s.replay.samples ++ t.samples) none) hperform
  have hlive : s.afterMove.live =
      ⟨s.live.time + 0.1 / s.setup.speeds.linear, ⟨s.live.pose.x + 0.1, 0, 0⟩⟩ := hlast
  have hbehind (q : Sample K) (hq : q ∈ samples) :
      s.live.pose.x ≤ q.pose.x ∧ q.pose.x ≤ s.live.pose.x + 0.1 := by
    obtain ⟨u, t, h0, hu, rfl⟩ := hway q hq
    exact ⟨by simpa using h0, by simpa using hu⟩
  constructor
  case setup_eq => rfl
  case inStep => exact h.inStep.append (Motion.leads_singleton_iff.2 ⟨hfault, rfl⟩)
  case head => rw [hreplay, List.head?_append, h.head]; rfl
  case safe =>
    rw [hreplay]
    refine List.forall_mem_append.2 ⟨h.safe, fun q hq => ?_⟩
    obtain ⟨u, t, h0, hu, rfl⟩ := hway q hq
    exact hsafe u t h0 hu
  case forward =>
    rw [hreplay]
    refine List.pairwise_append.2 ⟨h.forward, hforward, fun p hp q hq => ?_⟩
    exact (h.le_live p hp).trans (hbehind q hq).1
  case le_live =>
    rw [hreplay, hlive]
    refine List.forall_mem_append.2 ⟨fun p hp => (h.le_live p hp).trans ?_,
      fun q hq => (hbehind q hq).2⟩
    norm_num
  case live_safe =>
    rw [hlive]
    exact hsafe _ _ (by norm_num) le_rfl
  case clear =>
    -- what was read before the move, less the move, is a tenth short of the stopping distance
    intro _
    rw [hlive]
    refine ⟨by linarith, fun u h0 hu => ?_⟩
    rw [add_assoc]
    exact hclear _ (by linarith) (by linarith)

theorem Crept.steer :
    s.steer .moveForward (.ok 0.1) = (.ok (), s.afterMove) ∨
      s.steer .moveForward (.ok 0.1) = (.error (.callLimit setup.maxCalls), s.tick) := by
  obtain rfl := h.setup_eq
  obtain ⟨samples, hperform, -⟩ := h.live_safe.perform_creepDrive hspeed hcos hsin s.dt
  have hfault : ((Motion.drive (creepDrive s.setup.speeds.linear)).perform s.dt s.live).fault =
      none := congrArg Trace.fault hperform
  have hdrive : (Op.moveForward.command 0.1).drive s.setup.speeds =
      .ok (some (creepDrive s.setup.speeds.linear)) := straight_eq_creepDrive hspeed
  rcases s.steer_eq .moveForward 0.1 with ⟨hsteer, -⟩ | ⟨hsteer, -⟩
  · rw [hsteer, hdrive]
    exact .inl (s.record_of_performs hfault _)
  · exact .inr hsteer

omit hcos hsin hspeed [IsStrictOrderedRing K] in
theorem Crept.trajectory :
    s.trajectory = .ok (.initial setup.start :: s.replay.samples) := by
  obtain rfl := h.setup_eq
  exact Trajectory.build_eq_ok_iff.2 ⟨h.inStep.fault, rfl⟩

/-- How the script ends: by a reading under the stopping distance, or at the limit of calls. -/
def CreptToEnd (setup : Setup K) (r : Except (Fault K) Unit × Session K) : Prop :=
  r.2.Crept setup ∧
    (r.1 = .error (.callLimit setup.maxCalls) ∨
      r.1 = .ok () ∧ ∃ (t : Session K) (d : K), t.look = (.ok d, r.2) ∧ d < 0.5 ∧
        ((∃ e ∈ r.2.history, ∃ arg : K, e.label = (Op.moveForward.command arg).text) → 0.4 ≤ d))

theorem Crept.creep [Exact.HasRoots K] (hshape : ∀ o ∈ setup.obstacles, o.IsShape)
    (hrange : 0 ≤ setup.range) : CreptToEnd setup (s.creep 0.5 0.1) := by
  refine creep_rule (I := Crept setup) (fun s f t hs hl => ?_) (fun s d t hs hl hd => ?_)
    (fun s d t u hs hl hd hu => ?_) (fun s d t f u hs hl hd hu => ?_) h
  · rcases hs.look hcos hsin hshape hrange with ⟨d, hl', -⟩ | hl'
    · cases hl'.symm.trans hl
    · cases hl'.symm.trans hl
      exact ⟨hs.tick, .inl rfl⟩
  · rcases hs.look hcos hsin hshape hrange with ⟨d', hl', -, -, hlongest⟩ | hl'
    · cases hl'.symm.trans hl
      refine ⟨hs.tick, .inr ⟨rfl, s, d, hl, hd, fun hmoved => ?_⟩⟩
      obtain ⟨hreach, hclear⟩ := hs.clear hmoved
      exact hlongest _ hreach hclear
    · cases hl'.symm.trans hl
  · rcases hs.look hcos hsin hshape hrange with ⟨d', hl', hreach, hclear, -⟩ | hl'
    · cases hl'.symm.trans hl
      rcases hs.tick.steer hcos hsin hspeed with hs' | hs'
      · cases hs'.symm.trans hu
        exact hs.tick.move hcos hsin hspeed (not_lt.1 hd) hreach hclear
      · cases hs'.symm.trans hu
    · cases hl'.symm.trans hl
  · rcases hs.look hcos hsin hshape hrange with ⟨d', hl', -⟩ | hl'
    · cases hl'.symm.trans hl
      rcases hs.tick.steer hcos hsin hspeed with hs' | hs'
      · cases hs'.symm.trans hu
      · cases hs'.symm.trans hu
        exact ⟨hs.tick.tick, .inl rfl⟩
    · cases hl'.symm.trans hl

end Session

section Script

namespace Session

def fresh (setup : Setup K) (step : TimeStep K) : Session K :=
  ⟨setup, step, .initial setup.start, [], [], 0⟩

variable [IsStrictOrderedRing K] (setup : Setup K) (step : TimeStep K)

theorem start_eq_fresh (hdt : 0 < setup.dt) : ∃ step, start setup = .ok (fresh setup step) := by
  obtain ⟨step, hstep⟩ := TimeStep.check_of_pos hdt
  exact ⟨step, by rw [start, hstep]; rfl⟩

def placed (setup : Setup K) (step : TimeStep K) : Session K :=
  (fresh setup step).entered ((fresh setup step).carried (.teleport ⟨0, 0, 0⟩))
    (placeLabel (0 : K) 0 0)

theorem place_fresh :
    (fresh setup step).place (.ok 0.0) (.ok 0.0) (.ok 0.0) = (.ok (), placed setup step) ∧
        0 < setup.maxCalls ∨
      (fresh setup step).place (.ok 0.0) (.ok 0.0) (.ok 0.0) =
          (.error (.callLimit setup.maxCalls), (fresh setup step).tick) ∧
        ¬ 0 < setup.maxCalls := by
  have hangle : Scalar.radians (0 : K) = 0 := by simp [Exact.scalar_radians]
  rw [Exact.scalar_zero]
  rcases (fresh setup step).place_eq 0 0 0 with ⟨hplace, h⟩ | ⟨hplace, h⟩
  · rw [hangle] at hplace
    exact .inl ⟨hplace, h⟩
  · exact .inr ⟨hplace, not_lt.2 (Int.lt_add_one_iff.1 h)⟩

theorem crept_placed (hout : ∀ o ∈ setup.obstacles, ¬ o.Covers (0, 0)) :
    (placed setup step).Crept setup := by
  have hreplay : (placed setup step).replay.samples = [⟨0, ⟨0, 0, 0⟩⟩] := by
    show [(⟨0.0, ⟨0, 0, 0⟩⟩ : Sample K)] = _
    rw [Exact.scalar_zero]
  have hsafe : Sample.Safe setup.obstacles (placed setup step).live := ⟨rfl, rfl, hout⟩
  constructor
  case setup_eq => rfl
  case inStep => exact ⟨rfl, rfl⟩
  case head => rw [hreplay]; rfl
  case safe =>
    rw [hreplay, List.forall_mem_singleton]
    exact ⟨rfl, rfl, hout⟩
  case forward => rw [hreplay]; exact List.pairwise_singleton _ _
  case le_live => rw [hreplay, List.forall_mem_singleton]; exact le_rfl
  case live_safe => exact hsafe
  case clear =>
    rintro ⟨e, he, arg, hmove⟩
    cases List.mem_singleton.1 he
    exact absurd hmove (placeLabel_ne_text 0 0 0 .moveForward arg)

end Session

variable [IsStrictOrderedRing K] {setup : Setup K}

/-- On a fresh session in a world whose shapes leave the origin free, the script ends by itself
or at the limit of calls. The trajectory exists, and from the origin on every sample of it is
outside all obstacles and on the x axis, heads along it, and is as far as the ones before it or
farther. If the script ends by itself after a move, its last reading was 0.4 or more and less
than 0.5. -/
theorem stopAtWall_stays_clear [Exact.HasRoots K] (hcos : Exact.cos (0 : K) = 1)
    (hsin : Exact.sin (0 : K) = 0) (hshape : ∀ o ∈ setup.obstacles, o.IsShape)
    (hout : ∀ o ∈ setup.obstacles, ¬ o.Covers (0, 0)) (hdt : 0 < setup.dt)
    (hspeed : 0 < setup.speeds.linear) (hrange : 0 ≤ setup.range) :
    ∃ s₀, Session.start setup = .ok s₀ ∧ ∃ outcome final,
      Script.stopAtWall s₀ = (outcome, final) ∧
      (outcome = .ok () ∨ outcome = .error (.callLimit setup.maxCalls)) ∧
      (∃ samples, final.trajectory = .ok (.initial setup.start :: samples) ∧
        samples.head? = (if 0 < setup.maxCalls then some ⟨0, ⟨0, 0, 0⟩⟩ else none) ∧
        (∀ p ∈ samples, (∀ o ∈ setup.obstacles, ¬ o.Covers (p.pose.x, p.pose.y)) ∧
          p.pose.y = 0 ∧ p.pose.theta = 0) ∧
        samples.Pairwise fun p q => p.pose.x ≤ q.pose.x) ∧
      (outcome = .ok () → ∃ (t : Session K) (d : K), t.look = (.ok d, final) ∧ d < 0.5 ∧
        ((∃ e ∈ final.history, ∃ arg : K,
          e.label = Op.moveForward.name ++ "(" ++ Scalar.text arg ++ ")") → 0.4 ≤ d)) := by
  obtain ⟨step, hstart⟩ := Session.start_eq_fresh setup hdt
  refine ⟨_, hstart, ?_⟩
  unfold Script.stopAtWall
  rcases Session.place_fresh setup step with ⟨hplace, hcalls⟩ | ⟨hplace, hcalls⟩
  · rw [hplace, if_pos hcalls]
    obtain ⟨hcrept, hend⟩ :=
      (Session.crept_placed setup step hout).creep hcos hsin hspeed hshape hrange
    refine ⟨_, _, rfl, hend.symm.imp_left And.left,
      ⟨_, hcrept.trajectory, hcrept.head, fun p hp => ?_, hcrept.forward⟩, fun hok => ?_⟩
    · have h := hcrept.safe p hp
      exact ⟨h.outside, h.y, h.theta⟩
    · rcases hend with herror | ⟨-, hlast⟩
      · cases herror.symm.trans hok
      · exact hlast
  · rw [hplace, if_neg hcalls]
    exact ⟨_, _, rfl, .inr rfl, ⟨[], rfl, rfl, by simp, .nil⟩, by simp⟩

end Script

/-- A hall with a wall across the x axis and a column beside it. -/
noncomputable def hall : Setup ℝ :=
  ⟨[.rectangle 3.0 0 1 4.0, .circle 1 2.0 1], ⟨1, 1, 0⟩, 0.02, 5.0, 60, ⟨0.25, 45.0⟩⟩

theorem stopAtWall_stays_clear_hall :
    ∃ s₀ outcome final samples, Session.start hall = .ok s₀ ∧
      Script.stopAtWall s₀ = (outcome, final) ∧
      final.trajectory = .ok (.initial ⟨1, 1, 0⟩ :: samples) ∧
      samples.head? = some ⟨0, ⟨0, 0, 0⟩⟩ ∧ ∀ p ∈ samples, 0.5 < |p.pose.x - 3| := by
  have hshape : ∀ o ∈ hall.obstacles, o.IsShape := by norm_num [hall, Obstacle.IsShape]
  have hout : ∀ o ∈ hall.obstacles, ¬ o.Covers (0, 0) := by norm_num [hall, Obstacle.Covers]
  have hdt : 0 < hall.dt := by norm_num [hall]
  have hspeed : 0 < hall.speeds.linear := by norm_num [hall]
  have hrange : 0 ≤ hall.range := by norm_num [hall]
  obtain ⟨s₀, hstart, outcome, final, hrun, -, ⟨samples, hsamples, hhead, hclear, -⟩, -⟩ :=
    stopAtWall_stays_clear Real.cos_zero Real.sin_zero hshape hout hdt hspeed hrange
  refine ⟨s₀, outcome, final, samples, hstart, hrun, hsamples, hhead, fun p hp => ?_⟩
  obtain ⟨hout, hy, -⟩ := hclear p hp
  have hwall := hout (.rectangle 3.0 0 1 4.0) (by simp [hall])
  by_contra! hle
  refine hwall ⟨by norm_num at hle ⊢; exact hle, ?_⟩
  rw [hy]
  norm_num

end PlanarDrive
