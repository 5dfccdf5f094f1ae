import PlanarDrive.Proofs.EulerSteps

/-!
# Trajectories in other frames

A rover keeps nothing between its motions but its pose and its time, and an Euler step looks at the
heading only. So whatever change of poses and times a single step follows, a whole trajectory
follows. Rigid motions of the plane are such changes: a plan whose jumps are moved along leaves the
moved trajectory. Delays are another kind: what a plan does from where another has ended is what it
does from there at time zero, only later.
-/

namespace PlanarDrive

section Frames

variable {α : Type} [Scalar α]

/-- A change of times and of poses that every Euler step follows. -/
structure Frame (α : Type) [Scalar α] where
  time : α → α
  pose : Pose α → Pose α
  advance_image (s : Sample α) (v w dt : α) :
    Sample.advance ⟨time s.time, pose s.pose⟩ v w dt =
      (s.advance v w dt).map fun t => ⟨time t.time, pose t.pose⟩

namespace Frame

variable (frame : Frame α)

def sample (s : Sample α) : Sample α :=
  ⟨frame.time s.time, frame.pose s.pose⟩

def motion : Motion α → Motion α
  | .drive d => .drive d
  | .teleport p => .teleport (frame.pose p)

def trace (t : Trace α) : Trace α :=
  ⟨t.samples.map frame.sample, t.fault⟩

theorem last_trace (t : Trace α) (s : Sample α) :
    (frame.trace t).last (frame.sample s) = frame.sample (t.last s) := by
  simp [trace, Trace.last, List.getLastD_eq_getLast?, List.getLast?_map]

theorem advanceTimes_image (v w dt : α) (n : Nat) (s : Sample α) :
    Sample.advanceTimes v w dt n [] (frame.sample s) =
      frame.trace (Sample.advanceTimes v w dt n [] s) := by
  induction n generalizing s with
  | zero => rfl
  | succ n ih =>
    have hstep : (frame.sample s).advance v w dt = (s.advance v w dt).map frame.sample :=
      frame.advance_image s v w dt
    rw [Sample.advanceTimes_succ, Sample.advanceTimes_succ, hstep]
    cases s.advance v w dt with
    | error f => rfl
    | ok t =>
      show Trace.mk (frame.sample t :: _) _ = _
      rw [ih t]
      rfl

theorem perform_image (m : Motion α) (dt : TimeStep α) (s : Sample α) :
    (frame.motion m).perform dt (frame.sample s) = frame.trace (m.perform dt s) := by
  cases m with
  | teleport p => rfl
  | drive d =>
    show d.perform dt (frame.sample s) = frame.trace (d.perform dt s)
    unfold Drive.perform
    split
    · cases d.stepCount dt with
      | error f => rfl
      | ok n => exact frame.advanceTimes_image _ _ _ n s
    · rfl

/-- A plan follows a change of frames because each of its motions does. -/
theorem performAll_image (motions : List (Motion α)) (dt : TimeStep α) (s : Sample α) :
    Motion.performAll dt (motions.map frame.motion) (frame.sample s) =
      frame.trace (Motion.performAll dt motions s) := by
  induction motions generalizing s with
  | nil => rfl
  | cons m rest ih =>
    have hfault : ((frame.motion m).perform dt (frame.sample s)).fault = (m.perform dt s).fault := by
      rw [perform_image]
      rfl
    cases hm : (m.perform dt s).fault with
    | some f =>
      simp only [List.map_cons, Motion.performAll, hm, hfault]
      exact frame.perform_image m dt s
    | none =>
      rw [List.map_cons, Motion.performAll_cons (hfault.trans hm), Motion.performAll_cons hm,
        perform_image, last_trace, ih]
      exact congrArg (Trace.mk · _) List.map_append.symm

end Frame

end Frames

variable {K : Type} [Field K] [LinearOrder K] [Exact K]

/-- Exact numbers whose cosine and sine add angles as those of the circle do. -/
class Exact.AddsAngles (K : Type) [Field K] [LinearOrder K] [Exact K] : Prop where
  cos_add (a b : K) : Exact.cos (a + b) = Exact.cos a * Exact.cos b - Exact.sin a * Exact.sin b
  sin_add (a b : K) : Exact.sin (a + b) = Exact.sin a * Exact.cos b + Exact.cos a * Exact.sin b

instance : Exact.AddsAngles ℝ where
  cos_add := Real.cos_add
  sin_add := Real.sin_add

/-- A turn about the origin, and a shift after it. -/
structure RigidMotion (K : Type) where
  angle : K
  dx : K
  dy : K

namespace RigidMotion

def pose (g : RigidMotion K) (p : Pose K) : Pose K :=
  ⟨Exact.cos g.angle * p.x - Exact.sin g.angle * p.y + g.dx,
    Exact.sin g.angle * p.x + Exact.cos g.angle * p.y + g.dy, p.theta + g.angle⟩

variable [Exact.AddsAngles K]

theorem euler_image (g : RigidMotion K) (v w h : K) (s : Sample K) :
    Sample.euler v w h ⟨s.time, g.pose s.pose⟩ =
      ⟨(s.euler v w h).time, g.pose (s.euler v w h).pose⟩ := by
  simp only [Sample.euler, pose, Exact.AddsAngles.cos_add, Exact.AddsAngles.sin_add,
    Sample.mk.injEq, Pose.mk.injEq, true_and]
  exact ⟨by ring, by ring, by ring⟩

def frame (g : RigidMotion K) : Frame K where
  time t := t
  pose := g.pose
  advance_image s v w h := congrArg Except.ok (g.euler_image v w h s)

end RigidMotion

/-- When the start and the targets of all jumps are moved by a rigid motion, a plan leaves as many
samples as before, at the same times, and each of them is moved by that motion. -/
theorem trajectory_follows_rigidMotion [IsStrictOrderedRing K] [Exact.AddsAngles K]
    (g : RigidMotion K) (motions : List (Motion K)) (start : Pose K) {dt : K} (hdt : 0 < dt) :
    ∃ step samples, TimeStep.check dt = .ok step ∧
      Trajectory.build motions start step = .ok samples ∧
      Trajectory.build (motions.map g.frame.motion) (g.pose start) step =
        .ok (samples.map fun s => ⟨s.time, g.pose s.pose⟩) := by
  obtain ⟨step, hstep⟩ := TimeStep.check_of_pos hdt
  refine ⟨step, _, hstep, Trajectory.build_eq step motions start, ?_⟩
  have himage := g.frame.performAll_image motions step (.initial start)
  have hstart : Sample.initial (g.pose start) = g.frame.sample (.initial start) := rfl
  rw [Trajectory.build_eq, hstart, himage, List.map_cons]
  rfl

/-- At one step a second, a drive over whole seconds takes as many steps. -/
theorem Drive.perform_whole {step : TimeStep ℝ} (hstep : step.value = 1) {d : Drive ℝ} {n : ℕ}
    (hn : 1 ≤ n) (hd : d.duration = n) (s : Sample ℝ) :
    d.perform step s = ⟨List.iterate (Sample.euler d.v d.w 1) (s.euler d.v d.w 1) n, none⟩ := by
  have hpos : 0 < d.duration := by
    rw [hd]
    exact Nat.cast_pos.2 hn
  have hround : (Exact.roundEven (n : ℝ) : ℤ) = n := by
    show Exact.halfEven (n : ℝ) = n
    simp [Exact.halfEven]
  have hsteps : d.steps step = n := by
    rw [steps, hd, hstep, div_one, hround, Int.toNat_natCast, max_eq_right hn]
  have hlength : d.stepLength step = 1 := by
    rw [stepLength, hsteps, hd, div_self (Nat.cast_pos.2 hn).ne']
  rw [d.perform_of_pos step hpos, hsteps, hlength]

/-- An arc of two quarter turns and a jump, turned by a quarter and shifted. -/
theorem trajectory_follows_rigidMotion_arcAndJump :
    (0 : ℝ) < 1 ∧ ∃ step, TimeStep.check (1 : ℝ) = .ok step ∧
      Trajectory.build [.drive ⟨1, Real.pi / 2, 2⟩, .teleport ⟨5, 5, 0⟩] ⟨0, 0, 0⟩ step =
        .ok [⟨0, ⟨0, 0, 0⟩⟩, ⟨1, ⟨1, 0, Real.pi / 2⟩⟩, ⟨2, ⟨1, 1, Real.pi⟩⟩, ⟨2, ⟨5, 5, 0⟩⟩] ∧
      Trajectory.build [.drive ⟨1, Real.pi / 2, 2⟩, .teleport ⟨-4, 7, Real.pi / 2⟩]
          ⟨1, 2, Real.pi / 2⟩ step =
        .ok [⟨0, ⟨1, 2, Real.pi / 2⟩⟩, ⟨1, ⟨1, 3, Real.pi⟩⟩,
          ⟨2, ⟨0, 3, Real.pi + Real.pi / 2⟩⟩, ⟨2, ⟨-4, 7, Real.pi / 2⟩⟩] := by
  have hcos (a : ℝ) : Exact.cos a = Real.cos a := rfl
  have hsin (a : ℝ) : Exact.sin a = Real.sin a := rfl
  obtain ⟨step, samples, hstep, hbuild, himage⟩ := trajectory_follows_rigidMotion
    ⟨Real.pi / 2, 1, 2⟩ [.drive ⟨1, Real.pi / 2, 2⟩, .teleport ⟨5, 5, 0⟩] ⟨0, 0, 0⟩
    (one_pos (α := ℝ))
  obtain rfl : samples =
      [⟨0, ⟨0, 0, 0⟩⟩, ⟨1, ⟨1, 0, Real.pi / 2⟩⟩, ⟨2, ⟨1, 1, Real.pi⟩⟩, ⟨2, ⟨5, 5, 0⟩⟩] := by
    rw [Trajectory.build_eq, Except.ok.injEq] at hbuild
    rw [← hbuild, Motion.performAll_cons (Motion.fault_perform _ _ _), Motion.performAll_singleton,
      Motion.perform, Drive.perform_whole (TimeStep.check_eq_ok_iff.1 hstep) one_le_two
        Nat.cast_ofNat.symm]
    norm_num [Sample.initial, Sample.euler, Motion.perform, List.iterate, Trace.last, hcos, hsin]
  norm_num [RigidMotion.frame, Frame.motion, RigidMotion.pose, hcos, hsin] at himage
  exact ⟨one_pos, step, hstep, hbuild, himage⟩

def Sample.delayed (c : K) (s : Sample K) : Sample K :=
  ⟨s.time + c, s.pose⟩

def Frame.delay (c : K) : Frame K where
  time t := t + c
  pose p := p
  advance_image s v w h := by
    rw [Sample.advance_eq_euler, Sample.advance_eq_euler, Sample.euler, add_right_comm]
    rfl

theorem Frame.map_motion_delay (c : K) (motions : List (Motion K)) :
    motions.map (delay c).motion = motions := by
  refine (List.map_congr_left fun m _ => ?_).trans (List.map_id motions)
  cases m <;> rfl

theorem Motion.samples_performAll_delayed (motions : List (Motion K)) (dt : TimeStep K) (c : K)
    (s : Sample K) :
    (performAll dt motions (s.delayed c)).samples =
      (performAll dt motions s).samples.map (Sample.delayed c) := by
  have himage := (Frame.delay c).performAll_image motions dt s
  rw [Frame.map_motion_delay] at himage
  exact congrArg Trace.samples himage

/-- After a jump nothing is left of where it began. -/
theorem Motion.performAll_teleport (target p : Pose K) (rest : List (Motion K)) (dt : TimeStep K) :
    (performAll dt (.teleport target :: rest) (.initial p)).samples =
      .initial target :: (performAll dt rest (.initial target)).samples := by
  rw [performAll_cons rfl]
  rfl

section Compositions

variable [IsStrictOrderedRing K]

theorem Sample.delayed_initial (s : Sample K) : (Sample.initial s.pose).delayed s.time = s := by
  rw [delayed, initial, Exact.scalar_zero, zero_add]

/-- A plan goes on from where it has got to as if it began there, at the time it has got to. -/
theorem Trajectory.build_append (p q : List (Motion K)) (start : Pose K) (dt : TimeStep K) :
    ∃ first final, build p start dt = .ok first ∧ last first = .ok final ∧
      build (p ++ q) start dt =
        .ok (first ++ (Motion.performAll dt q (.initial final.pose)).samples.map
          (Sample.delayed final.time)) := by
  have hleads : Motion.Leads dt p (.initial start) _ := ⟨Motion.fault_performAll dt p _, rfl⟩
  obtain ⟨first, hfirst, hlast⟩ := build_of_leads hleads
  refine ⟨first, _, hfirst, by rw [last, hlast]; rfl, ?_⟩
  rw [← Motion.samples_performAll_delayed, Sample.delayed_initial, build_eq,
    Motion.performAll_append hleads.fault, (build_eq_ok_iff.1 hfirst).2]
  rfl

/-- The trajectory of two plans one after the other is that of the first, followed by the samples
of the second from where the first ends, its start left out, later by the time that the first has
taken. When the second begins with a jump, what follows is the trajectory of its other motions from
the target: the same whatever the first plan is and wherever it starts, but for that time. -/
theorem trajectories_compose (q : List (Motion K)) {dt : K} (hdt : 0 < dt) :
    ∃ step, TimeStep.check dt = .ok step ∧
      (∀ p start, ∃ first final second, Trajectory.build p start step = .ok first ∧
        Trajectory.last first = .ok final ∧
        Trajectory.build q final.pose step = .ok second ∧
        Trajectory.build (p ++ q) start step =
          .ok (first ++ second.tail.map (Sample.delayed final.time))) ∧
      ∀ target rest, q = .teleport target :: rest →
        ∃ following, Trajectory.build rest target step = .ok following ∧
          ∀ p start, ∃ first final, Trajectory.build p start step = .ok first ∧
            Trajectory.last first = .ok final ∧
            Trajectory.build (p ++ q) start step =
              .ok (first ++ following.map (Sample.delayed final.time)) := by
  obtain ⟨step, hstep⟩ := TimeStep.check_of_pos hdt
  refine ⟨step, hstep, fun p start => ?_, ?_⟩
  · obtain ⟨first, final, hfirst, hlast, hbuild⟩ := Trajectory.build_append p q start step
    exact ⟨first, final, _, hfirst, hlast, Trajectory.build_eq step q final.pose, hbuild⟩
  · rintro target rest rfl
    refine ⟨_, Trajectory.build_eq step rest target, fun p start => ?_⟩
    obtain ⟨first, final, hfirst, hlast, hbuild⟩ :=
      Trajectory.build_append p (.teleport target :: rest) start step
    rw [Motion.performAll_teleport] at hbuild
    exact ⟨first, final, hfirst, hlast, hbuild⟩

end Compositions

/-- A jump and a turn, after a drive of two seconds and after nothing. -/
theorem trajectories_compose_jumpAndTurn :
    (0 : ℝ) < 1 ∧ ∃ step, TimeStep.check (1 : ℝ) = .ok step ∧
      Trajectory.build [.drive ⟨1, 0, 2⟩, .teleport ⟨5, 5, 0⟩, .drive ⟨0, 1, 1⟩] ⟨0, 0, 0⟩ step =
        .ok [⟨0, ⟨0, 0, 0⟩⟩, ⟨1, ⟨1, 0, 0⟩⟩, ⟨2, ⟨2, 0, 0⟩⟩, ⟨2, ⟨5, 5, 0⟩⟩, ⟨3, ⟨5, 5, 1⟩⟩] ∧
      Trajectory.build [.teleport ⟨5, 5, 0⟩, .drive ⟨0, 1, 1⟩] ⟨9, 8, 7⟩ step =
        .ok [⟨0, ⟨9, 8, 7⟩⟩, ⟨0, ⟨5, 5, 0⟩⟩, ⟨1, ⟨5, 5, 1⟩⟩] := by
  obtain ⟨step, hstep, -, hjump⟩ := trajectories_compose
    [.teleport ⟨5, 5, 0⟩, .drive ⟨0, 1, 1⟩] (one_pos (α := ℝ))
  obtain ⟨following, hfollowing, hafter⟩ := hjump _ _ rfl
  obtain ⟨first, final, hfirst, hfinal, hbuild⟩ := hafter [.drive ⟨1, 0, 2⟩] ⟨0, 0, 0⟩
  obtain ⟨first', final', hfirst', hfinal', hbuild'⟩ := hafter [] ⟨9, 8, 7⟩
  have hvalue := TimeStep.check_eq_ok_iff.1 hstep
  have hcos : Exact.cos (0 : ℝ) = 1 := Real.cos_zero
  have hsin : Exact.sin (0 : ℝ) = 0 := Real.sin_zero
  rw [Trajectory.build_eq, Motion.performAll_singleton, Motion.perform,
    Drive.perform_whole hvalue le_rfl Nat.cast_one.symm, Except.ok.injEq] at hfollowing
  rw [Trajectory.build_eq, Motion.performAll_singleton, Motion.perform,
    Drive.perform_whole hvalue one_le_two Nat.cast_ofNat.symm, Except.ok.injEq] at hfirst
  rw [Trajectory.build_eq, Except.ok.injEq] at hfirst'
  subst hfollowing hfirst hfirst'
  cases hfinal
  cases hfinal'
  refine ⟨one_pos, step, hstep, hbuild.trans ?_, hbuild'.trans ?_⟩ <;>
    norm_num [Sample.initial, Sample.euler, Sample.delayed, Motion.performAll, Trace.empty,
      List.iterate, hcos, hsin]

end PlanarDrive
