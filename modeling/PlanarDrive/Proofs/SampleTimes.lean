import PlanarDrive.Proofs.EulerSteps

/-!
# The times of samples

In exact numbers a trajectory begins at time zero and lasts as long as its drives do together. A
drive is cut into the nearest whole number of nominal steps, at least one, and the steps share its
duration, so a step is never as long as one and a half nominal ones, and at least half as long
unless the whole drive is shorter. The strict bound needs that one and a half steps are rounded to
two.
-/

namespace PlanarDrive

theorem Trace.times_le_last {α : Type} [Preorder α] {s : Sample α} {samples : List (Sample α)}
    (h : (s :: samples).Pairwise fun a b => a.time ≤ b.time) (f : Option (Fault α)) :
    ∀ a ∈ s :: samples, a.time ≤ (Trace.last ⟨samples, f⟩ s).time := by
  intro a ha
  rcases samples.eq_nil_or_concat with rfl | ⟨init, t, rfl⟩
  · rw [List.mem_singleton.1 ha]
    exact le_rfl
  · have hlast : Trace.last ⟨init.concat t, f⟩ s = t := by simp [Trace.last]
    rw [hlast]
    rw [List.concat_eq_append, ← List.cons_append] at h ha
    rcases List.mem_append.1 ha with hinit | ht
    · exact (List.pairwise_append.1 h).2.2 a hinit t (List.mem_singleton_self t)
    · rw [List.mem_singleton.1 ht]

variable {K : Type} [Field K] [LinearOrder K] [Exact K]

namespace Drive

variable (d : Drive K) (dt : TimeStep K)

theorem steps_eq_one_or :
    (d.steps dt = 1 ∧ Exact.roundEven (d.duration / dt.value) ≤ 1) ∨
      (1 < d.steps dt ∧ Exact.roundEven (d.duration / dt.value) = d.steps dt) := by
  unfold steps
  omega

variable [IsStrictOrderedRing K] [Exact.RoundsHalfEven K]

theorem quotient_lt_steps : d.duration / dt.value < 3 / 2 * d.steps dt := by
  have hnear := abs_le.1 (Exact.RoundsHalfEven.abs_sub_roundEven_le (d.duration / dt.value))
  rcases d.steps_eq_one_or dt with ⟨hone, hround⟩ | ⟨hmany, hround⟩
  · rw [hone, Nat.cast_one, mul_one]
    have hcast : (Exact.roundEven (d.duration / dt.value) : K) ≤ 1 := by exact_mod_cast hround
    refine lt_of_le_of_ne (by linarith) fun htie => ?_
    -- half way between one and two steps, which is rounded to two
    have hr : Exact.roundEven (d.duration / dt.value) = 1 := by
      refine le_antisymm hround ?_
      have h : (1 : K) ≤ (Exact.roundEven (d.duration / dt.value) : K) := by linarith
      exact_mod_cast h
    have heven := Exact.RoundsHalfEven.even_roundEven (d.duration / dt.value) (by
      rw [hr, htie]
      norm_num)
    rw [hr] at heven
    exact absurd heven (by decide)
  · have htwo : (2 : K) ≤ d.steps dt := by exact_mod_cast hmany
    rw [hround, Int.cast_natCast] at hnear
    linarith

theorem steps_le_quotient (h : 1 / 2 ≤ d.duration / dt.value) :
    1 / 2 * (d.steps dt : K) ≤ d.duration / dt.value := by
  have hnear := abs_le.1 (Exact.RoundsHalfEven.abs_sub_roundEven_le (d.duration / dt.value))
  rcases d.steps_eq_one_or dt with ⟨hone, -⟩ | ⟨hmany, hround⟩
  · rwa [hone, Nat.cast_one, mul_one]
  · have htwo : (2 : K) ≤ d.steps dt := by exact_mod_cast hmany
    rw [hround, Int.cast_natCast] at hnear
    linarith

end Drive

theorem TimeStep.value_pos [IsStrictOrderedRing K] (dt : TimeStep K) : 0 < dt.value := by
  have h := dt.positive
  rw [Exact.scalar_zero] at h
  exact not_le.1 h

namespace Drive

variable [IsStrictOrderedRing K] (d : Drive K) (dt : TimeStep K)

theorem stepLength_pos (hd : 0 < d.duration) : 0 < d.stepLength dt :=
  div_pos hd (Nat.cast_pos.2 (d.steps_pos dt))

variable [Exact.RoundsHalfEven K]

theorem stepLength_lt : d.stepLength dt < 3 / 2 * dt.value := by
  have hsteps : (0 : K) < d.steps dt := Nat.cast_pos.2 (d.steps_pos dt)
  have h := (div_lt_iff₀ dt.value_pos).1 (d.quotient_lt_steps dt)
  rw [stepLength, div_lt_iff₀ hsteps]
  linarith

theorem le_stepLength (h : 1 / 2 * dt.value ≤ d.duration) :
    1 / 2 * dt.value ≤ d.stepLength dt := by
  have hsteps : (0 : K) < d.steps dt := Nat.cast_pos.2 (d.steps_pos dt)
  have hq := (le_div_iff₀ dt.value_pos).1
    (d.steps_le_quotient dt ((le_div_iff₀ dt.value_pos).2 h))
  rw [stepLength, le_div_iff₀ hsteps]
  linarith

end Drive

namespace Sample

theorem time_iterate_euler (v w h : K) (n : ℕ) (s : Sample K) :
    ((euler v w h)^[n] s).time = s.time + n * h := by
  induction n with
  | zero => simp
  | succ n ih =>
    rw [Function.iterate_succ_apply', euler, ih]
    push_cast
    ring

end Sample

namespace Motion

def sampleCount (dt : K) : Motion K → ℕ
  | drive d => if 0 < d.duration then max 1 (Exact.roundEven (d.duration / dt)).toNat else 0
  | teleport _ => 1

/-- A step of a drive is shorter than one and a half nominal ones, and at least half as long as one
unless the whole drive is shorter. -/
structure Fits (dt duration h : K) : Prop where
  pos : 0 < h
  lt : h < 3 / 2 * dt
  le : 1 / 2 * dt ≤ duration → 1 / 2 * dt ≤ h

/-- The samples of a motion that begins at `s`, as far as their times go: a jump leaves its target
at once, and the samples of a drive follow at equal steps that fit it. -/
def Paced (dt : K) (s : Sample K) (samples : List (Sample K)) : Motion K → Prop
  | drive d =>
    if 0 < d.duration then
      ∃ h, Fits dt d.duration h ∧ (sampleCount dt (drive d) : K) * h = d.duration ∧
        samples.map (·.time) =
          (List.range (sampleCount dt (drive d))).map fun i => s.time + (i + 1 : ℕ) * h
    else samples = []
  | teleport p => samples = [⟨s.time, p⟩]

def span : Motion K → K
  | drive d => if 0 < d.duration then d.duration else 0
  | teleport _ => 0

variable {dt : K} {s : Sample K} {samples : List (Sample K)} {m : Motion K}

theorem Paced.length (h : m.Paced dt s samples) : samples.length = m.sampleCount dt := by
  cases m with
  | teleport p =>
    rw [show samples = [⟨s.time, p⟩] from h]
    rfl
  | drive d =>
    simp only [Paced] at h
    split_ifs at h with hd
    · obtain ⟨_, -, -, htimes⟩ := h
      have hlength := congrArg List.length htimes
      rwa [List.length_map, List.length_map, List.length_range] at hlength
    · rw [h, sampleCount, if_neg hd]
      rfl

/-- A motion ends as much later as it takes. -/
theorem Paced.last_time (h : m.Paced dt s samples) (f : Option (Fault K)) :
    (Trace.last ⟨samples, f⟩ s).time = s.time + m.span := by
  cases m with
  | teleport p =>
    rw [show samples = [⟨s.time, p⟩] from h]
    simp [Trace.last, span]
  | drive d =>
    simp only [Paced] at h
    split_ifs at h with hd
    · obtain ⟨step, -, hspan, htimes⟩ := h
      have hpos : 0 < sampleCount dt (drive d) := by
        rw [sampleCount, if_pos hd]
        exact lt_of_lt_of_le one_pos (le_max_left _ _)
      obtain ⟨n, hn⟩ := Nat.exists_eq_succ_of_ne_zero hpos.ne'
      have hlast : (samples.map (·.time)).getLast? = some (s.time + d.duration) := by
        rw [htimes, hn, List.range_succ, List.map_append, List.map_singleton,
          List.getLast?_concat, ← hspan, hn]
      rw [List.getLast?_map] at hlast
      obtain ⟨t, ht, htime⟩ := Option.map_eq_some_iff.1 hlast
      rw [Trace.last, List.getLastD_eq_getLast?, ht, Option.getD_some, htime, span, if_pos hd]
    · rw [h, span, if_neg hd]
      simp [Trace.last]

variable [IsStrictOrderedRing K]

/-- The times of a motion begin after the time it begins at, and grow. -/
theorem Paced.times (h : m.Paced dt s samples) :
    (s :: samples).Pairwise (fun a b => a.time ≤ b.time) := by
  cases m with
  | teleport p =>
    rw [show samples = [⟨s.time, p⟩] from h]
    simp
  | drive d =>
    simp only [Paced] at h
    split_ifs at h with hd
    · obtain ⟨step, hfits, -, htimes⟩ := h
      have htimes' : (s :: samples).map (·.time) =
          (List.range (sampleCount dt (drive d) + 1)).map fun i => s.time + (i : ℕ) * step := by
        rw [List.range_succ_eq_map, List.map_cons, List.map_cons, htimes, List.map_map]
        simp [Function.comp_def]
      rw [← List.pairwise_map (f := fun a : Sample K => a.time) (R := (· ≤ ·)), htimes',
        List.pairwise_map]
      refine List.pairwise_lt_range.imp fun {i j} hij => ?_
      have hcast : (i : K) ≤ j := Nat.cast_le.2 hij.le
      linarith [mul_le_mul_of_nonneg_right hcast hfits.pos.le]
    · rw [h]
      simp

theorem performed_paced [Exact.RoundsHalfEven K] (dt : TimeStep K) (m : Motion K) (s : Sample K) :
    (m.perform dt s).fault = none ∧ m.Paced dt.value s (m.perform dt s).samples := by
  cases m with
  | teleport p => exact ⟨rfl, rfl⟩
  | drive d =>
    show (d.perform dt s).fault = none ∧ (drive d).Paced dt.value s (d.perform dt s).samples
    by_cases hd : 0 < d.duration
    · have hcount : sampleCount dt.value (drive d) = d.steps dt := if_pos hd
      have hsum : (sampleCount dt.value (drive d) : K) * d.stepLength dt = d.duration := by
        rw [hcount, d.steps_mul_stepLength dt]
      rw [d.perform_of_pos dt hd, Paced, if_pos hd]
      refine ⟨rfl, d.stepLength dt,
        ⟨d.stepLength_pos dt hd, d.stepLength_lt dt, d.le_stepLength dt⟩, hsum, ?_⟩
      rw [hcount, ← List.range_map_iterate, List.map_map]
      refine List.map_congr_left fun i _ => ?_
      rw [Function.comp_apply, ← Function.iterate_succ_apply, Sample.time_iterate_euler]
    · rw [d.perform_of_not_pos dt hd, Paced, if_neg hd]
      exact ⟨rfl, rfl⟩

end Motion

namespace Trajectory

variable [IsStrictOrderedRing K]

theorem foldl_durations (motions : List (Motion K)) (t : K) :
    (motions.filterMap duration).foldl (· + ·) t = t + (motions.map Motion.span).sum := by
  induction motions generalizing t with
  | nil => exact (add_zero t).symm
  | cons m rest ih =>
    rw [List.map_cons, List.sum_cons, ← add_assoc]
    cases m with
    | teleport p =>
      rw [List.filterMap_cons_none rfl, ih]
      exact congrArg (· + _) (add_zero t).symm
    | drive d =>
      have hzero : ((0.0 : K) < d.duration) = (0 < d.duration) := by rw [Exact.scalar_zero]
      by_cases hd : 0 < d.duration
      · have hdur : duration (.drive d) = some d.duration := if_pos (hzero ▸ hd)
        rw [List.filterMap_cons_some hdur, List.foldl_cons, ih, Motion.span, if_pos hd]
      · have hdur : duration (.drive d) = none := if_neg (hzero ▸ hd)
        rw [List.filterMap_cons_none hdur, ih, Motion.span, if_neg hd, add_zero]

theorem totalDuration_eq_sum (motions : List (Motion K)) :
    totalDuration motions = (motions.map Motion.span).sum := by
  refine (foldl_durations motions (0.0 : K)).trans ?_
  rw [Exact.scalar_zero, zero_add]

end Trajectory

section Runs

variable [IsStrictOrderedRing K] [Exact.RoundsHalfEven K] (dt : TimeStep K)

theorem Motion.performAll_paced (motions : List (Motion K)) (s : Sample K) :
    (performAll dt motions s).fault = none ∧
      (performAll dt motions s).samples.length = (motions.map (sampleCount dt.value)).sum ∧
      ((performAll dt motions s).last s).time = s.time + (motions.map span).sum ∧
      (s :: (performAll dt motions s).samples).Pairwise fun a b => a.time ≤ b.time := by
  induction motions generalizing s with
  | nil => simp [performAll, Trace.empty, Trace.last]
  | cons m rest ih =>
    obtain ⟨hfault, hpaced⟩ := performed_paced dt m s
    have htime := hpaced.last_time (m.perform dt s).fault
    obtain ⟨hrest, hlength, hlast, hordered⟩ := ih ((m.perform dt s).last s)
    rw [performAll_cons hfault]
    refine ⟨hrest, ?_, ?_, ?_⟩
    · rw [List.length_append, hpaced.length, hlength, List.map_cons, List.sum_cons]
    · rw [Trace.last_append, hlast, List.map_cons, List.sum_cons, ← add_assoc]
      exact congrArg (· + _) htime
    · rw [← List.cons_append, List.pairwise_append]
      refine ⟨hpaced.times, hordered.of_cons, fun a ha b hb => ?_⟩
      exact (Trace.times_le_last hpaced.times (m.perform dt s).fault a ha).trans
        (List.rel_of_pairwise_cons hordered hb)

end Runs

/-- A trajectory is built for every plan, and its samples keep time. It begins with the start at
time zero, ends when its drives have taken their time, and its times never go back. It has one
sample more than its motions leave, and every motion goes on from the last sample before it. -/
theorem trajectory_keeps_time [IsStrictOrderedRing K] [Exact.RoundsHalfEven K]
    (motions : List (Motion K)) (start : Pose K) {dt : K} (hdt : 0 < dt) :
    ∃ step samples, TimeStep.check dt = .ok step ∧
      Trajectory.build motions start step = .ok samples ∧
      samples.head? = some ⟨0, start⟩ ∧
      samples.getLast?.map (·.time) = some (Trajectory.totalDuration motions) ∧
      samples.length = 1 + (motions.map (Motion.sampleCount dt)).sum ∧
      samples.Pairwise (fun a b => a.time ≤ b.time) ∧
      ∀ before m after, motions = before ++ m :: after →
        ∃ earlier own later s, samples = earlier ++ own ++ later ∧
          Trajectory.build before start step = .ok earlier ∧ earlier.getLast? = some s ∧
          m.Paced dt s own := by
  obtain ⟨step, hstep⟩ := TimeStep.check_of_pos hdt
  have hvalue := TimeStep.check_eq_ok_iff.1 hstep
  have hstart : Sample.initial start = (⟨0, start⟩ : Sample K) := by
    rw [Sample.initial, Exact.scalar_zero]
  obtain ⟨hfault, hlength, hlast, hordered⟩ :=
    Motion.performAll_paced step motions (.initial start)
  refine ⟨step, _, hstep, Trajectory.build_eq_ok_iff.2 ⟨hfault, rfl⟩, ?_, ?_, ?_, hordered, ?_⟩
  · rw [List.head?_cons, hstart]
  · rw [List.getLast?_cons, Option.map_some, ← List.getLastD_eq_getLast?,
      Trajectory.totalDuration_eq_sum]
    refine congrArg some (hlast.trans ?_)
    rw [hstart, zero_add]
  · rw [List.length_cons, hlength, hvalue, add_comm]
  · rintro before m after rfl
    obtain ⟨hbefore, -⟩ := Motion.performAll_paced step before (.initial start)
    have hsplit := Motion.performAll_append hbefore (m :: after)
    generalize hs : (Motion.performAll step before (.initial start)).last (.initial start) = s
      at hsplit
    obtain ⟨hm, hpaced⟩ := Motion.performed_paced step m s
    rw [Motion.performAll_cons hm] at hsplit
    rw [hvalue] at hpaced
    refine ⟨_, _, (Motion.performAll step after ((m.perform step s).last s)).samples, s, ?_,
      Trajectory.build_eq_ok_iff.2 ⟨hbefore, rfl⟩, ?_, hpaced⟩
    · rw [hsplit, List.cons_append, List.cons_append, List.append_assoc]
    · rw [List.getLast?_cons, ← List.getLastD_eq_getLast?, ← hs]
      rfl

/-- One and a half steps are rounded to two, and a half step to none, so it makes one. -/
theorem trajectory_keeps_time_halves :
    (0 : ℝ) < 1 ∧ ∃ step samples, TimeStep.check (1 : ℝ) = .ok step ∧
      Trajectory.build [.drive ⟨1, 0, 1.5⟩, .teleport ⟨5, 5, 0⟩, .drive ⟨0, 2, -3⟩,
        .drive ⟨1, 1, 0.5⟩] ⟨0, 0, 0⟩ step = .ok samples ∧
      samples.head? = some (⟨0, ⟨0, 0, 0⟩⟩ : Sample ℝ) ∧
      samples.getLast?.map (·.time) = some 2 ∧ samples.length = 5 := by
  refine ⟨one_pos, ?_⟩
  obtain ⟨step, samples, hstep, hbuild, hhead, hlast, hlength, -, -⟩ := trajectory_keeps_time
    [.drive ⟨1, 0, 1.5⟩, .teleport ⟨5, 5, 0⟩, .drive ⟨0, 2, -3⟩, .drive ⟨1, 1, 0.5⟩]
    (⟨0, 0, 0⟩ : Pose ℝ) one_pos
  refine ⟨step, samples, hstep, hbuild, hhead, ?_, ?_⟩
  · rw [hlast, Trajectory.totalDuration_eq_sum]
    norm_num [Motion.span]
  · have htwo : (Exact.roundEven (3 / 2 : ℝ) : ℤ) = 2 := by
      show Exact.halfEven (3 / 2 : ℝ) = 2
      have hfloor : ⌊(3 / 2 : ℝ)⌋ = 1 := by norm_num [Int.floor_eq_iff]
      have hfract : Int.fract (3 / 2 : ℝ) = 1 / 2 := by norm_num [Int.fract, hfloor]
      norm_num [Exact.halfEven, hfloor, hfract]
    have hnone : (Exact.roundEven (1 / 2 : ℝ) : ℤ) = 0 := by
      show Exact.halfEven (1 / 2 : ℝ) = 0
      have hfloor : ⌊(1 / 2 : ℝ)⌋ = 0 := by norm_num [Int.floor_eq_iff]
      have hfract : Int.fract (1 / 2 : ℝ) = 1 / 2 := by norm_num [Int.fract, hfloor]
      norm_num [Exact.halfEven, hfloor, hfract]
    rw [hlength]
    norm_num [Motion.sampleCount, htwo, hnone]
    rfl

end PlanarDrive
