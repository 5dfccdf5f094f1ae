import PlanarDrive.Proofs.CallEffect
import PlanarDrive.Proofs.EulerSteps

/-!
# What a plan of commands means

A forward move displaces the rover along its heading and a turn changes the heading, at once and
by exactly the number that is asked for. In exact numbers the drives that a plan is compiled to
lead to the pose that this meaning gives, however the drives are cut into steps and at whatever
speeds, and take the time that the distances and angles need at these speeds.
-/

namespace PlanarDrive

variable {K : Type} [Field K] [LinearOrder K] [Exact K]

namespace Op

def displace (op : Op) (arg : K) (p : Pose K) : Pose K :=
  match op with
  | moveForward =>
    ⟨p.x + arg * Exact.cos p.theta, p.y + arg * Exact.sin p.theta, p.theta⟩
  | turnLeft => ⟨p.x, p.y, p.theta + arg * Exact.pi / 180⟩
  | turnRight => ⟨p.x, p.y, p.theta - arg * Exact.pi / 180⟩

def time (op : Op) (arg : K) (speeds : Speeds K) : K :=
  match op with
  | moveForward => |arg| / speeds.linear
  | turnLeft | turnRight => |arg| / speeds.angular

end Op

namespace Command

def displace (c : Command K) (p : Pose K) : Pose K :=
  (Op.ofName? c.op).elim p fun op => op.displace c.arg p

def time (c : Command K) (speeds : Speeds K) : K :=
  (Op.ofName? c.op).elim 0 fun op => op.time c.arg speeds

end Command

variable [IsStrictOrderedRing K]

namespace Drive

theorem straight_eq {speed : K} (hs : 0 < speed) (distance : K) :
    straight distance speed = .ok (if distance = 0 then none else
      some ⟨Scalar.copySign speed distance, 0, |distance| / speed⟩) := by
  unfold straight
  rw [Exact.scalar_isZero, Exact.scalar_divide hs.ne']
  by_cases hz : distance = 0
  · simp [hz]
  · simp only [hz, decide_false, Bool.false_eq_true, if_false, Except.map]
    norm_num
    rfl

theorem turn_eq {speed : K} (hs : 0 < speed) (angle : K) :
    turn angle speed = .ok (if angle = 0 then none else
      some ⟨0, Scalar.copySign (speed * Exact.pi / 180) angle, |angle| / speed⟩) := by
  unfold turn
  rw [Exact.scalar_isZero, Exact.scalar_divide hs.ne', Exact.scalar_radians]
  by_cases hz : angle = 0
  · simp [hz]
  · simp only [hz, decide_false, Bool.false_eq_true, if_false, Except.map]
    norm_num
    rfl

/-- The time times the signed speed is the signed distance. -/
theorem duration_mul_copySign {speed factor : K} (hs : 0 < speed) (hf : 0 < factor) (a : K) :
    |a| / speed * Scalar.copySign (speed * factor) a = a * factor := by
  have hpos : |speed * factor| = speed * factor := abs_of_pos (mul_pos hs hf)
  have hsign : Scalar.copySign (speed * factor) a =
      if a < 0 then -|speed * factor| else |speed * factor| := rfl
  rw [hsign, hpos]
  split_ifs with ha
  · rw [abs_of_neg ha]
    field_simp
  · rw [abs_of_nonneg (not_lt.1 ha)]
    field_simp

end Drive

section Plans

variable {speeds : Speeds K} (hl : 0 < speeds.linear) (ha : 0 < speeds.angular)
include hl ha

omit ha in
/-- A straight drive displaces the rover along its heading. -/
theorem Drive.straight_leads (distance : K) :
    ∃ d : Option (Drive K), straight distance speeds.linear = .ok d ∧
      ∀ (dt : TimeStep K) (s : Sample K), Motion.Leads dt (d.toList.map .drive) s
        ⟨s.time + |distance| / speeds.linear, s.pose.x + distance * Exact.cos s.pose.theta,
          s.pose.y + distance * Exact.sin s.pose.theta, s.pose.theta⟩ := by
  rw [straight_eq hl]
  by_cases hz : distance = 0
  · -- no distance leaves no drive
    refine ⟨none, by rw [if_pos hz], fun dt s => ?_⟩
    simpa [hz] using Motion.Leads.nil s
  · refine ⟨_, by rw [if_neg hz], fun dt s => ?_⟩
    have hlead := leads_straight
      ⟨Scalar.copySign speeds.linear distance, 0, |distance| / speeds.linear⟩
      (div_pos (abs_pos.2 hz) hl) rfl dt s
    have hdist := duration_mul_copySign hl one_pos distance
    rw [mul_one, mul_one] at hdist
    simp only [Sample.straightOn, hdist] at hlead
    exact hlead

omit hl in
/-- A turn changes the heading by its angle. -/
theorem Drive.turn_leads (angle : K) :
    ∃ d : Option (Drive K), turn angle speeds.angular = .ok d ∧
      ∀ (dt : TimeStep K) (s : Sample K), Motion.Leads dt (d.toList.map .drive) s
        ⟨s.time + |angle| / speeds.angular, s.pose.x, s.pose.y,
          s.pose.theta + angle * Exact.pi / 180⟩ := by
  rw [turn_eq ha]
  by_cases hz : angle = 0
  · refine ⟨none, by rw [if_pos hz], fun dt s => ?_⟩
    simpa [hz] using Motion.Leads.nil s
  · refine ⟨_, by rw [if_neg hz], fun dt s => ?_⟩
    have hlead := leads_turn ⟨0, Scalar.copySign (speeds.angular * Exact.pi / 180) angle,
      |angle| / speeds.angular⟩ (div_pos (abs_pos.2 hz) ha) rfl dt s
    have hdegree : (0 : K) < Exact.pi / 180 := div_pos Exact.pi_pos (by norm_num)
    have hangle := duration_mul_copySign ha hdegree angle
    rw [← mul_div_assoc, ← mul_div_assoc] at hangle
    simp only [hangle] at hlead
    exact hlead

theorem Op.command_leads (op : Op) (arg : K) :
    ∃ d : Option (Drive K), (op.command arg).drive speeds = .ok d ∧
      ∀ (dt : TimeStep K) (s : Sample K), Motion.Leads dt (d.toList.map .drive) s
        ⟨s.time + op.time arg speeds, op.displace arg s.pose⟩ := by
  cases op with
  | moveForward => exact Drive.straight_leads hl arg
  | turnLeft => exact Drive.turn_leads ha arg
  | turnRight =>
    obtain ⟨d, hd, hleads⟩ := Drive.turn_leads ha (-arg)
    refine ⟨d, hd, fun dt s => ?_⟩
    have h := hleads dt s
    rw [abs_neg, neg_mul, neg_div, ← sub_eq_add_neg] at h
    exact h

theorem Command.drive_leads {c : Command K} (hc : ∃ op : Op, c.op = op.name) :
    ∃ d : Option (Drive K), c.drive speeds = .ok d ∧ ∀ (dt : TimeStep K) (s : Sample K),
      Motion.Leads dt (d.toList.map .drive) s ⟨s.time + c.time speeds, c.displace s.pose⟩ := by
  obtain ⟨op, hop⟩ := hc
  have hknown : Op.ofName? c.op = some op := by rw [hop, Op.ofName?_name]
  obtain ⟨d, hd, hleads⟩ := op.command_leads hl ha c.arg
  rw [Op.command_of_ofName? hknown] at hd
  refine ⟨d, hd, ?_⟩
  simpa only [time, displace, hknown, Option.elim_some] using hleads

theorem Command.plan_leads {commands : List (Command K)}
    (hops : ∀ c ∈ commands, ∃ op : Op, c.op = op.name) :
    ∃ drives, plan commands speeds = .ok drives ∧ ∀ (dt : TimeStep K) (s : Sample K),
      Motion.Leads dt (drives.map .drive) s
        ⟨s.time + (commands.map (·.time speeds)).sum,
          commands.foldl (fun p c => c.displace p) s.pose⟩ := by
  induction commands with
  | nil =>
    refine ⟨[], rfl, fun dt s => ?_⟩
    simpa using Motion.Leads.nil s
  | cons c rest ih =>
    obtain ⟨d, hd, hfirst⟩ := drive_leads hl ha (hops c List.mem_cons_self)
    obtain ⟨drives, hplan, hthen⟩ := ih fun c' h => hops c' (List.mem_cons_of_mem _ h)
    refine ⟨d.toList ++ drives, plan_cons hd hplan, fun dt s => ?_⟩
    have h := (hfirst dt s).append (hthen dt _)
    rw [List.map_append, List.map_cons, List.sum_cons, ← add_assoc, List.foldl_cons]
    exact h

end Plans

/-- A plan of known operations is compiled, and the trajectory of its drives is built, for any
positive step of time and any positive speeds. It ends at the pose that the commands mean from
the start, which depends on neither, at the sum of the times that they take. -/
theorem build_plan_reaches_meaning {commands : List (Command K)}
    (hops : ∀ c ∈ commands, ∃ op : Op, c.op = op.name) (start : Pose K) {dt : K} (hdt : 0 < dt)
    {speeds : Speeds K} (hl : 0 < speeds.linear) (ha : 0 < speeds.angular) :
    ∃ step drives samples, TimeStep.check dt = .ok step ∧
      Command.plan commands speeds = .ok drives ∧
      Trajectory.build (drives.map .drive) start step = .ok samples ∧
      samples.getLast? = some ⟨(commands.map (·.time speeds)).sum,
        commands.foldl (fun p c => c.displace p) start⟩ := by
  obtain ⟨step, hstep⟩ := TimeStep.check_of_pos hdt
  obtain ⟨drives, hplan, hleads⟩ := Command.plan_leads hl ha hops
  have h := hleads step (.initial start)
  have hzero : (Sample.initial start).time = (0 : K) := Exact.scalar_zero
  rw [hzero, zero_add] at h
  obtain ⟨samples, hbuild, hlast⟩ := Trajectory.build_of_leads h
  exact ⟨step, drives, samples, hstep, hplan, hbuild, hlast⟩

/-- Ahead, to the left, ahead, to the right and back. -/
theorem build_plan_reaches_meaning_detour :
    ∃ step drives samples, TimeStep.check (0.02 : ℝ) = .ok step ∧
      Command.plan [⟨"move_forward", 3.25⟩, ⟨"turn_left", 90⟩, ⟨"move_forward", 1.75⟩,
        ⟨"turn_right", 90⟩, ⟨"move_forward", -3.25⟩] ⟨0.25, 45⟩ = .ok drives ∧
      Trajectory.build (drives.map .drive) ⟨0, 0, 0⟩ step = .ok samples ∧
      samples.getLast? = some (⟨37, ⟨0, 1.75, 0⟩⟩ : Sample ℝ) := by
  have hops : ∀ c ∈ ([⟨"move_forward", 3.25⟩, ⟨"turn_left", 90⟩, ⟨"move_forward", 1.75⟩,
      ⟨"turn_right", 90⟩, ⟨"move_forward", -3.25⟩] : List (Command ℝ)),
      ∃ op : Op, c.op = op.name := by
    simp only [List.forall_mem_cons, List.not_mem_nil, false_implies, implies_true, and_true]
    exact ⟨⟨.moveForward, rfl⟩, ⟨.turnLeft, rfl⟩, ⟨.moveForward, rfl⟩, ⟨.turnRight, rfl⟩,
      ⟨.moveForward, rfl⟩⟩
  have hdt : (0 : ℝ) < 0.02 := by norm_num
  have hl : 0 < (⟨0.25, 45⟩ : Speeds ℝ).linear := by norm_num
  have ha : 0 < (⟨0.25, 45⟩ : Speeds ℝ).angular := by norm_num
  obtain ⟨step, drives, samples, hstep, hplan, hbuild, hlast⟩ :=
    build_plan_reaches_meaning hops ⟨0, 0, 0⟩ hdt hl ha
  refine ⟨step, drives, samples, hstep, hplan, hbuild, hlast.trans ?_⟩
  have hforward : Op.ofName? "move_forward" = some .moveForward := rfl
  have hleft : Op.ofName? "turn_left" = some .turnLeft := rfl
  have hright : Op.ofName? "turn_right" = some .turnRight := rfl
  have hquarter : (0 : ℝ) + 90 * Exact.pi / 180 = Real.pi / 2 := by
    show (0 : ℝ) + 90 * Real.pi / 180 = Real.pi / 2
    ring
  have hback : Real.pi / 2 - 90 * Exact.pi / 180 = 0 := by
    show Real.pi / 2 - 90 * Real.pi / 180 = 0
    ring
  have hcos (a : ℝ) : Exact.cos a = Real.cos a := rfl
  have hsin (a : ℝ) : Exact.sin a = Real.sin a := rfl
  simp only [List.map_cons, List.map_nil, List.sum_cons, List.sum_nil, List.foldl_cons,
    List.foldl_nil, Command.time, Command.displace, Op.time, Op.displace, hforward, hleft, hright,
    Option.elim_some, hquarter, hback, hcos, hsin, Real.cos_zero, Real.sin_zero,
    Real.cos_pi_div_two, Real.sin_pi_div_two]
  norm_num

end PlanarDrive
