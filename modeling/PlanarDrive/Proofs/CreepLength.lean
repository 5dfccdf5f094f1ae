import PlanarDrive.PoseTable
import PlanarDrive.Proofs.Fallible
import PlanarDrive.Proofs.NearestHit
import PlanarDrive.Proofs.SafeCreep

/-!
# How long a creeping script goes on

The script that stops at a wall halts before every move and reads the sensor. Where it halts depends
on the moves alone, so the halts are a sequence of their own, whatever the numbers are. The reading
at halt `k` is call `2 * k + 2`, after the call that puts the rover at the origin and a reading and
a move for every halt before. The script ends at the first halt that is near enough to an obstacle,
if the limit lets it read there, and at the limit if not.
-/

namespace PlanarDrive

variable {α : Type} [Scalar α]

namespace Sample

def steered (op : Op) (arg : α) (speeds : Speeds α) (dt : TimeStep α) (s : Sample α) :
    Except (Fault α) (Sample α) := do
  let d ← (op.command arg).drive speeds
  let trace := Motion.performAll dt (d.toList.map .drive) s
  trace.fault.elim (.ok (trace.last s)) .error

theorem steered_eq_ok_iff {op : Op} {arg : α} {speeds : Speeds α} {dt : TimeStep α}
    {s t : Sample α} :
    s.steered op arg speeds dt = .ok t ↔
      ∃ d, (op.command arg).drive speeds = .ok d ∧ Motion.Leads dt (d.toList.map .drive) s t := by
  unfold steered
  constructor
  · intro h
    obtain ⟨d, hd, h⟩ := bind_ok h
    dsimp only at h
    cases hf : (Motion.performAll dt (d.toList.map .drive) s).fault with
    | some f =>
      rw [hf] at h
      cases h
    | none =>
      rw [hf] at h
      cases h
      exact ⟨d, hd, hf, rfl⟩
  · rintro ⟨d, hd, hf, rfl⟩
    rw [hd]
    show (Motion.performAll dt (d.toList.map .drive) s).fault.elim _ _ = _
    rw [hf]
    rfl

end Sample

namespace Setup

variable (setup : Setup α) (dt : TimeStep α)

/-- The rover at a halt: from the origin on there is a move between two halts. -/
def halt : ℕ → Except (Fault α) (Sample α)
  | 0 => .ok (.initial ⟨0.0, 0.0, Scalar.radians 0.0⟩)
  | k + 1 => do (← halt k).steered .moveForward 0.1 setup.speeds dt

def reading (k : ℕ) : Except (Fault α) α := do
  Sensor.front setup.obstacles (← setup.halt dt k).pose setup.range

/-- The limit lets the script read at this halt, and it reads less than its stopping distance. -/
def StopsAt (k : ℕ) : Prop :=
  (2 * k + 2 : ℕ) ≤ setup.maxCalls ∧ ∃ d, setup.reading dt k = .ok d ∧ d < 0.5

variable {setup dt}

/-- No halt stops the script if none does that comes before the limit. -/
theorem not_stopsAt_of_limit {k : ℕ} (hlimit : setup.maxCalls < (2 * k + 2 : ℕ))
    (hbefore : ∀ j < k, ¬ setup.StopsAt dt j) (j : ℕ) : ¬ setup.StopsAt dt j := by
  intro hj
  have hcalls := hj.1
  exact hbefore j (by omega) hj

end Setup

namespace Session

/-- The rover is at a halt, and the history has the moves that led to it. -/
structure AtHalt (setup : Setup α) (dt : TimeStep α) (k : ℕ) (s : Session α) : Prop where
  setup_eq : s.setup = setup
  dt_eq : s.dt = dt
  live : setup.halt dt k = .ok s.live
  labels : s.history.map (·.label) =
    placeLabel (0.0 : α) 0.0 0.0 :: List.replicate k (Op.moveForward.command (0.1 : α)).text

section Halt

variable {setup : Setup α} {dt : TimeStep α} {k : ℕ} {s : Session α} (h : s.AtHalt setup dt k)
include h

theorem AtHalt.tick : s.tick.AtHalt setup dt k :=
  ⟨h.setup_eq, h.dt_eq, h.live, h.labels⟩

/-- The next call of a rover at a halt is a reading, unless it is one call too many. -/
theorem AtHalt.look :
    s.look = (setup.reading dt k, s.tick) ∧ (s.calls + 1 : ℕ) ≤ setup.maxCalls ∨
      s.look = (.error (.callLimit setup.maxCalls), s.tick) ∧
        setup.maxCalls < (s.calls + 1 : ℕ) := by
  have hreading : setup.reading dt k = Sensor.front setup.obstacles s.pose setup.range := by
    rw [Setup.reading, h.live]
    rfl
  rw [hreading]
  obtain rfl := h.setup_eq
  exact s.look_eq

theorem AtHalt.reading_of_look {d : α} {t : Session α} (hl : s.look = (.ok d, t)) :
    setup.reading dt k = .ok d ∧ t = s.tick ∧ t.calls ≤ setup.maxCalls := by
  rcases h.look with ⟨hl', hle⟩ | ⟨hl', -⟩
  · obtain ⟨hd, rfl⟩ := Prod.mk.inj (hl'.symm.trans hl)
    exact ⟨hd, rfl, hle⟩
  · cases hl'.symm.trans hl

/-- A move leads from a halt to the next one, unless it is one call too many. -/
theorem AtHalt.move
    (hnext : (s.calls + 1 : ℕ) ≤ setup.maxCalls → ∃ p, setup.halt dt (k + 1) = .ok p) :
    (∃ t, s.steer .moveForward (.ok 0.1) = (.ok (), t) ∧ t.AtHalt setup dt (k + 1) ∧
        t.calls = s.calls + 1) ∧ (s.calls + 1 : ℕ) ≤ setup.maxCalls ∨
      s.steer .moveForward (.ok 0.1) = (.error (.callLimit setup.maxCalls), s.tick) ∧
        setup.maxCalls < (s.calls + 1 : ℕ) := by
  obtain rfl := h.setup_eq
  obtain rfl := h.dt_eq
  rcases s.steer_eq .moveForward 0.1 with ⟨hsteer, hle⟩ | ⟨hsteer, hlt⟩
  · refine .inl ⟨?_, hle⟩
    obtain ⟨p, hlive⟩ := hnext hle
    have hmoved := hlive
    rw [Setup.halt, h.live] at hmoved
    obtain ⟨d, hdrive, hlead⟩ := Sample.steered_eq_ok_iff.1 hmoved
    have hlabels : s.history.map (·.label) ++ [(Op.moveForward.command (0.1 : α)).text] =
        placeLabel (0.0 : α) 0.0 0.0 ::
          List.replicate (k + 1) (Op.moveForward.command (0.1 : α)).text := by
      rw [h.labels, List.replicate_succ', List.cons_append]
    rw [hsteer, hdrive]
    cases d with
    | none =>
      obtain rfl := hlead.last
      exact ⟨_, rfl, ⟨rfl, rfl, hlive, List.map_append.trans hlabels⟩, rfl⟩
    | some d =>
      obtain ⟨hfault, rfl⟩ := Motion.leads_singleton_iff.1 hlead
      exact ⟨_, s.record_of_performs hfault _,
        ⟨rfl, rfl, hlive, List.map_append.trans hlabels⟩, rfl⟩
  · exact .inr ⟨hsteer, hlt⟩

end Halt

/-- The calls that led to a halt, as they are written with the usual texts of their numbers. -/
theorem AtHalt.texts {setup : Setup α} {dt : TimeStep α} {k : ℕ} {s : Session α}
    (h : s.AtHalt setup dt k) (hzero : Scalar.text (0.0 : α) = "0")
    (htenth : Scalar.text (0.1 : α) = "0.1") :
    s.history.map (·.label) =
      "set_pose(0, 0, 0)" :: List.replicate k "move_forward(0.1)" := by
  have hplace : placeLabel (0.0 : α) 0.0 0.0 = "set_pose(0, 0, 0)" := by
    rw [placeLabel, hzero]
    rfl
  have hmove : (Op.moveForward.command (0.1 : α)).text = "move_forward(0.1)" := by
    rw [Command.text, Op.command, htenth]
    rfl
  rw [h.labels, hplace, hmove]

structure BeforeReading (setup : Setup α) (dt : TimeStep α) (k : ℕ) (s : Session α) : Prop where
  atHalt : s.AtHalt setup dt k
  calls : s.calls = 2 * k + 1
  le_limit : s.calls ≤ setup.maxCalls
  not_yet : ∀ j < k, ¬ setup.StopsAt dt j

/-- How the script ends: at the first halt that stops it, or at the limit of calls, which then
cuts it off before a reading or before a move. -/
inductive CreptOut (setup : Setup α) (dt : TimeStep α) (limit : ℕ) :
    Except (Fault α) Unit × Session α → Prop
  | stopped (k : ℕ) (s : Session α) (h : s.AtHalt setup dt k) (hcalls : s.calls = 2 * k + 2)
      (hleast : IsLeast {k | setup.StopsAt dt k} k) : CreptOut setup dt limit (.ok (), s)
  | limited (k : ℕ) (s : Session α) (h : s.AtHalt setup dt k) (hcalls : s.calls = limit + 1)
      (hk : (limit - 1) / 2 = k) (hnever : ∀ j, ¬ setup.StopsAt dt j) :
      CreptOut setup dt limit (.error (.callLimit limit), s)

section Creep

variable {setup : Setup α} {dt : TimeStep α} {k : ℕ}

theorem BeforeReading.not_yet_succ {s : Session α} {d : α} (h : s.BeforeReading setup dt k)
    (hreading : setup.reading dt k = .ok d) (hd : ¬ d < 0.5) :
    ∀ j < k + 1, ¬ setup.StopsAt dt j := by
  refine Nat.forall_lt_succ_right.2 ⟨h.not_yet, ?_⟩
  rintro ⟨-, d', hd', hlt⟩
  cases hreading.symm.trans hd'
  exact hd hlt

variable {limit : ℕ} (hlimit : setup.maxCalls = limit)
  (hmove : ∀ k, 2 * k + 3 ≤ limit → ∃ p, setup.halt dt (k + 1) = .ok p)
  (hread : ∀ k, 2 * k + 2 ≤ limit → ∃ d, setup.reading dt k = .ok d)
include hlimit hmove hread

theorem BeforeReading.creep {s : Session α} (h : s.BeforeReading setup dt k) :
    CreptOut setup dt limit (s.creep 0.5 0.1) := by
  refine creep_rule (I := fun s => ∃ k, s.BeforeReading setup dt k) ?_ ?_ ?_ ?_ ⟨k, h⟩
  · rintro s f t ⟨k, hs⟩ hl
    have hcalls := hs.calls
    have hle := hs.le_limit
    rcases hs.atHalt.look with ⟨hl', hle'⟩ | ⟨hl', hlt⟩
    · obtain ⟨d, hd⟩ := hread k (by omega)
      rw [hd] at hl'
      cases hl'.symm.trans hl
    · cases hl'.symm.trans hl
      rw [hlimit]
      -- an odd limit, spent on the way to this halt
      refine .limited k _ hs.atHalt.tick ?_ (by omega)
        (Setup.not_stopsAt_of_limit (by omega) hs.not_yet)
      rw [calls_tick]
      omega
  · rintro s d t ⟨k, hs⟩ hl hd
    obtain ⟨hreading, rfl, hle⟩ := hs.atHalt.reading_of_look hl
    have hcalls : s.tick.calls = 2 * k + 2 := congrArg (· + 1) hs.calls
    refine .stopped k _ hs.atHalt.tick hcalls ⟨⟨by omega, d, hreading, hd⟩, fun j hj => ?_⟩
    exact not_lt.1 fun hlt => hs.not_yet j hlt hj
  · rintro s d t u ⟨k, hs⟩ hl hd hu
    obtain ⟨hreading, rfl, -⟩ := hs.atHalt.reading_of_look hl
    have hcalls : s.tick.calls = 2 * k + 2 := congrArg (· + 1) hs.calls
    rcases hs.atHalt.tick.move fun hle => hmove k (by omega) with
      ⟨⟨v, hv, hhalt, hcalls'⟩, hle⟩ | ⟨hv, -⟩
    · cases hv.symm.trans hu
      exact ⟨k + 1, hhalt, by omega, by omega, hs.not_yet_succ hreading hd⟩
    · cases hv.symm.trans hu
  · rintro s d t f u ⟨k, hs⟩ hl hd hu
    obtain ⟨hreading, rfl, hle⟩ := hs.atHalt.reading_of_look hl
    have hcalls : s.tick.calls = 2 * k + 2 := congrArg (· + 1) hs.calls
    rcases hs.atHalt.tick.move fun hle => hmove k (by omega) with
      ⟨⟨v, hv, -⟩, -⟩ | ⟨hv, hlt⟩
    · cases hv.symm.trans hu
    · cases hv.symm.trans hu
      rw [hlimit]
      -- an even limit, spent with the reading at this halt
      refine .limited k _ hs.atHalt.tick.tick ?_ (by omega)
        (Setup.not_stopsAt_of_limit (by omega) (hs.not_yet_succ hreading hd))
      rw [calls_tick]
      omega

end Creep

/-- A new session is put at the origin, or has no call to make. -/
theorem place_start {setup : Setup α} {s : Session α} (hstart : start setup = .ok s) :
    (∃ t, s.place (.ok 0.0) (.ok 0.0) (.ok 0.0) = (.ok (), t) ∧ t.BeforeReading setup s.dt 0) ∨
      s.place (.ok 0.0) (.ok 0.0) (.ok 0.0) = (.error (.callLimit setup.maxCalls), s.tick) ∧
        setup.maxCalls < 1 := by
  obtain ⟨-, hs⟩ := start_eq_ok hstart
  have hcalls : s.calls = 0 := congrArg Session.calls hs
  obtain rfl : s.setup = setup := congrArg Session.setup hs
  rcases s.place_eq 0.0 0.0 0.0 with ⟨hplace, hle⟩ | ⟨hplace, hlt⟩
  · refine .inl ⟨_, hplace, ⟨rfl, rfl, ?_, ?_⟩, ?_, hle, by simp⟩
    · rw [hs]
      rfl
    · rw [hs]
      rfl
    · show s.calls + 1 = 1
      omega
  · exact .inr ⟨hplace, by omega⟩

end Session

/-- Whatever the numbers are, the script on a new session stops at the first halt where it may read
and reads less than its stopping distance, with the moves to that halt in its history and two calls
for each of them besides the first and the last one. If there is no such halt, the limit ends it.
Numbers that write zero as 0 and a tenth as 0.1 have exactly these texts in the history. -/
theorem stopAtWall_ends_at_first_halt {setup : Setup α} {limit : ℕ}
    (hlimit : setup.maxCalls = limit) {s : Session α} (hstart : Session.start setup = .ok s)
    (hmove : ∀ k, 2 * k + 3 ≤ limit → ∃ p, setup.halt s.dt (k + 1) = .ok p)
    (hread : ∀ k, 2 * k + 2 ≤ limit → ∃ d, setup.reading s.dt k = .ok d) :
    ∃ outcome final, Script.stopAtWall s = (outcome, final) ∧
      (outcome = .ok () ↔ ∃ k, setup.StopsAt s.dt k) ∧
      (∀ k, IsLeast {k | setup.StopsAt s.dt k} k →
        final.AtHalt setup s.dt k ∧ final.calls = 2 * k + 2) ∧
      ((∀ k, ¬ setup.StopsAt s.dt k) →
        outcome = .error (.callLimit limit) ∧ final.calls = limit + 1 ∧
          (limit = 0 → final.history = []) ∧
          (1 ≤ limit → final.AtHalt setup s.dt ((limit - 1) / 2))) ∧
      (Scalar.text (0.0 : α) = "0" → Scalar.text (0.1 : α) = "0.1" →
        ∀ k, final.AtHalt setup s.dt k → final.history.map (·.label) =
          "set_pose(0, 0, 0)" :: List.replicate k "move_forward(0.1)") := by
  unfold Script.stopAtWall
  rcases Session.place_start hstart with ⟨t, ht, hfirst⟩ | ⟨ht, hlt⟩
  · have hend := hfirst.creep hlimit hmove hread
    have hcalls := hfirst.calls
    have hle := hfirst.le_limit
    rw [ht]
    dsimp only
    generalize t.creep 0.5 0.1 = r at hend ⊢
    cases hend with
    | stopped k final hfinal hcalls hleast =>
      refine ⟨_, _, rfl, iff_of_true rfl ⟨k, hleast.1⟩, fun j hj => ?_, fun hnever => ?_,
        fun hzero htenth j hj => hj.texts hzero htenth⟩
      · obtain rfl := hj.unique hleast
        exact ⟨hfinal, hcalls⟩
      · exact absurd hleast.1 (hnever k)
    | limited k final hfinal hcalls hk hnever =>
      refine ⟨_, _, rfl, iff_of_false nofun (not_exists.2 hnever), fun j hj => ?_, fun _ => ?_,
        fun hzero htenth j hj => hj.texts hzero htenth⟩
      · exact absurd hj.1 (hnever j)
      · exact ⟨rfl, hcalls, fun _ => by omega, fun _ => hk ▸ hfinal⟩
  · obtain rfl : limit = 0 := by omega
    obtain ⟨-, hs⟩ := Session.start_eq_ok hstart
    have hnever : ∀ k, ¬ setup.StopsAt s.dt k :=
      Setup.not_stopsAt_of_limit (k := 0) (by omega) (by simp)
    rw [ht, hlimit]
    refine ⟨_, _, rfl, iff_of_false nofun (not_exists.2 hnever), fun j hj => ?_, fun _ => ?_,
      fun hzero htenth j hj => hj.texts hzero htenth⟩
    · exact absurd hj.1 (hnever j)
    · refine ⟨rfl, ?_, fun _ => ?_, fun h => absurd h (by omega)⟩ <;> rw [hs] <;> rfl

/-- The halts are tenths apart on the x axis. -/
theorem Setup.halt_eq {K : Type} [Field K] [LinearOrder K] [IsStrictOrderedRing K] [Exact K]
    (hcos : Exact.cos (0 : K) = 1) (hsin : Exact.sin (0 : K) = 0) (setup : Setup K)
    (hspeed : 0 < setup.speeds.linear) (dt : TimeStep K) (k : ℕ) :
    setup.halt dt k = .ok ⟨k * (0.1 / setup.speeds.linear), ⟨k * 0.1, 0, 0⟩⟩ := by
  induction k with
  | zero => simp [halt, Sample.initial, Exact.scalar_zero, Exact.scalar_radians]
  | succ k ih =>
    have hsafe : Sample.Safe [] (⟨k * (0.1 / setup.speeds.linear), ⟨k * 0.1, 0, 0⟩⟩ : Sample K) :=
      ⟨rfl, rfl, by simp⟩
    obtain ⟨samples, hperform, -, -, hlast⟩ := hsafe.perform_creepDrive hspeed hcos hsin dt
    rw [halt, ih]
    refine Sample.steered_eq_ok_iff.2 ⟨_, straight_eq_creepDrive hspeed,
      Motion.leads_singleton_iff.2 ⟨congrArg Trace.fault hperform, hlast.trans ?_⟩⟩
    push_cast
    rw [add_one_mul, add_one_mul]

/-- A disc ahead of the origin, and a limit of calls. -/
noncomputable def deadEnd (limit : ℤ) : Setup ℝ :=
  ⟨[.circle 1.55 0 1], ⟨0, 0, 0⟩, 0.02, 5.0, limit, ⟨0.25, 45.0⟩⟩

theorem halt_deadEnd (limit : ℤ) (dt : TimeStep ℝ) (k : ℕ) :
    (deadEnd limit).halt dt k = .ok ⟨k * (0.1 / 0.25), ⟨k * 0.1, 0, 0⟩⟩ :=
  Setup.halt_eq Real.cos_zero Real.sin_zero _ (by norm_num [deadEnd]) dt k

theorem reading_deadEnd (limit : ℤ) (dt : TimeStep ℝ) {k : ℕ} (hk : k ≤ 5) :
    (deadEnd limit).reading dt k = .ok (0.55 - k * 0.1) := by
  have hx : (k : ℝ) ≤ 5 := by exact_mod_cast hk
  have hahead : (⟨k * 0.1, 0, 0⟩ : Pose ℝ).ahead = ⟨k * 0.1, 0, 1, 0⟩ := by
    simp [Pose.ahead, Exact.cos, Exact.sin]
  have halong : (⟨k * 0.1, 0, 1, 0⟩ : Ray ℝ).along 1.55 0 = 1.55 - k * 0.1 := by simp [Ray.along]
  have hacross : (⟨k * 0.1, 0, 1, 0⟩ : Ray ℝ).across 1.55 0 = 0 := by
    rw [Ray.across, halong]
    ring
  have hhalf : (⟨k * 0.1, 0, 1, 0⟩ : Ray ℝ).half 1.55 0 1 = 1 := by
    rw [Ray.half, hacross]
    norm_num
    exact Real.sqrt_one
  have hhit : (⟨k * 0.1, 0, 0⟩ : Pose ℝ).ahead.hit (.circle 1.55 0 1) =
      .ok (some (0.55 - k * 0.1)) := by
    rw [hahead, Ray.hit, Ray.hitCircle_of_le (by rw [hacross]; norm_num), halong, hhalf,
      if_pos (by linarith)]
    norm_num
    ring
  rw [Setup.reading, halt_deadEnd]
  refine (Sensor.front_singleton hhit (by norm_num [deadEnd])).trans ?_
  have hrange : (0.55 : ℝ) - k * 0.1 < (deadEnd limit).range := by
    have hx' : (0 : ℝ) ≤ k := Nat.cast_nonneg k
    norm_num [deadEnd]
    linarith
  rw [Sensor.nearer, if_pos hrange]

/-- An empty world, where three calls lead from the origin to the first move. -/
def shortRun : Session Binary64 :=
  { openField with setup := { openField.setup with maxCalls := 3 } }

/-- The second halt is near enough to the disc. With five calls the script reads there, and three
calls only lead to it. The history names the calls of a run that three calls end as well. -/
theorem stopAtWall_ends_at_first_halt_deadEnd :
    (∃ s final, Session.start (deadEnd 5) = .ok s ∧ Script.stopAtWall s = (.ok (), final) ∧
      final.AtHalt (deadEnd 5) s.dt 1 ∧ final.calls = 4) ∧
    (∃ s final, Session.start (deadEnd 3) = .ok s ∧
      Script.stopAtWall s = (.error (.callLimit 3), final) ∧
      final.AtHalt (deadEnd 3) s.dt 1 ∧ final.calls = 4) ∧
    ∃ final, Session.start shortRun.setup = .ok shortRun ∧
      Script.stopAtWall shortRun = (.error (.callLimit 3), final) ∧
      final.history.map (·.label) = ["set_pose(0, 0, 0)", "move_forward(0.1)"] := by
  have hstart (limit : ℤ) : ∃ s, Session.start (deadEnd limit) = .ok s := by
    obtain ⟨step, h⟩ := Session.start_eq_fresh (deadEnd limit) (by norm_num [deadEnd])
    exact ⟨_, h⟩
  have hfar (limit : ℤ) (dt : TimeStep ℝ) : ¬ (deadEnd limit).StopsAt dt 0 := by
    rintro ⟨-, d, hd, hlt⟩
    rw [reading_deadEnd limit dt (Nat.zero_le 5)] at hd
    cases hd
    norm_num at hlt
  have hnear (dt : TimeStep ℝ) : (deadEnd 5).StopsAt dt 1 :=
    ⟨by norm_num [deadEnd], _, reading_deadEnd 5 dt (by norm_num), by norm_num⟩
  refine ⟨?_, ?_, ?_⟩
  · have hlimit : (deadEnd 5).maxCalls = (5 : ℕ) := rfl
    obtain ⟨s, hs⟩ := hstart 5
    obtain ⟨outcome, final, hrun, hstops, hleast, -⟩ :=
      stopAtWall_ends_at_first_halt hlimit hs
        (fun k _ => ⟨_, halt_deadEnd 5 s.dt (k + 1)⟩)
        (fun k hk => ⟨_, reading_deadEnd 5 s.dt (by omega)⟩)
    obtain rfl := hstops.2 ⟨1, hnear s.dt⟩
    obtain ⟨hfinal, hcalls⟩ := hleast 1 ⟨hnear s.dt, fun k hk => Nat.one_le_iff_ne_zero.2
      fun h0 => hfar 5 s.dt (h0 ▸ hk)⟩
    exact ⟨s, final, hs, hrun, hfinal, hcalls⟩
  · have hlimit : (deadEnd 3).maxCalls = (3 : ℕ) := rfl
    obtain ⟨s, hs⟩ := hstart 3
    obtain ⟨outcome, final, hrun, -, -, hnever, -⟩ :=
      stopAtWall_ends_at_first_halt hlimit hs
        (fun k _ => ⟨_, halt_deadEnd 3 s.dt (k + 1)⟩)
        (fun k hk => ⟨_, reading_deadEnd 3 s.dt (by omega)⟩)
    have hnone : ∀ k, ¬ (deadEnd 3).StopsAt s.dt k :=
      Setup.not_stopsAt_of_limit (k := 1) (by omega) (by simpa using hfar 3 s.dt)
    obtain ⟨rfl, hcalls, -, hfinal⟩ := hnever hnone
    exact ⟨s, final, hs, hrun, hfinal (by norm_num), hcalls⟩
  · have hlimit : shortRun.setup.maxCalls = (3 : ℕ) := rfl
    have hs : Session.start shortRun.setup = .ok shortRun := rfl
    have hread : shortRun.setup.reading shortRun.dt 0 = .ok 5.0 := by decide +kernel
    have hmoved : (shortRun.setup.halt shortRun.dt 1).toOption.isSome = true := by decide +kernel
    have hmove : ∃ p, shortRun.setup.halt shortRun.dt 1 = .ok p := by
      obtain ⟨p, hp⟩ := Option.isSome_iff_exists.1 hmoved
      exact ⟨p, eq_ok_of_toOption hp⟩
    -- the limit leaves room for one reading and one move
    have honly {k : ℕ} (hk : 2 * k + 2 ≤ 3) : k = 0 := by omega
    obtain ⟨outcome, final, hrun, -, -, hnever, htexts⟩ :=
      stopAtWall_ends_at_first_halt hlimit hs
        (fun k hk => honly (Nat.le_of_succ_le hk) ▸ hmove)
        (fun k hk => honly hk ▸ ⟨5.0, hread⟩)
    have hnone : ∀ k, ¬ shortRun.setup.StopsAt shortRun.dt k := by
      refine Setup.not_stopsAt_of_limit (k := 1) (by decide) fun j hj => ?_
      obtain rfl : j = 0 := by omega
      rintro ⟨-, d, hd, hlt⟩
      cases hread.symm.trans hd
      exact absurd hlt (by decide +kernel)
    obtain ⟨rfl, -, -, hfinal⟩ := hnever hnone
    have hnames := htexts (by decide +kernel) (by decide +kernel) 1 (hfinal (by norm_num))
    exact ⟨final, hs, hrun, hnames⟩

end PlanarDrive
