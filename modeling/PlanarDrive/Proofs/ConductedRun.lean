import PlanarDrive.CommandLine.Run
import PlanarDrive.Proofs.Attempts
import PlanarDrive.Proofs.Fallible
import PlanarDrive.Proofs.HistoryChain
import PlanarDrive.Proofs.SafeCreep

/-!
# Missions that are carried out

A mission is solved by a script or by its plan. Either way the session has taken one counted call
after the other, so what every call keeps holds at the end: the recorded motions lead to the live
pose and the history is a chain of poses, unless a motion has failed, which leaves no trajectory.
So everything that is found out about a mission that was carried out is about one and the same end.
-/

namespace PlanarDrive

variable {α β : Type} [Scalar α]

namespace Session

section Keeps

variable {P : Session α → Prop}
  (hP : ∀ {β : Type} {s : Session α} {r : Except (Fault α) β × Session α},
    s.Effect r → P s → P r.2)
include hP

theorem creep_keeps {s : Session α} (hs : P s) (stop step : α) :
    P (s.creep stop step).2 := by
  have hlook {s t : Session α} {r : Except (Fault α) α} (hs : P s) (h : s.look = (r, t)) : P t := by
    have ht := hP s.effect_look hs
    rwa [h] at ht
  have hstep {t u : Session α} {r : Except (Fault α) Unit} (ht : P t)
      (h : t.steer .moveForward (.ok step) = (r, u)) : P u := by
    have hu := hP (t.effect_steer .moveForward (.ok step)) ht
    rwa [h] at hu
  exact creep_rule (I := P) (P := fun r => P r.2) (fun s f t hs h => hlook hs h)
    (fun s d t hs h _ => hlook hs h) (fun s d t u hs h _ hu => hstep (hlook hs h) hu)
    (fun s d t f u hs h _ hu => hstep (hlook hs h) hu) hs

theorem stopAtWall_keeps {s : Session α} (hs : P s) : P (Script.stopAtWall s).2 := by
  have hplace := hP (s.effect_place (.ok 0.0) (.ok 0.0) (.ok 0.0)) hs
  unfold Script.stopAtWall
  rcases hr : s.place (.ok 0.0) (.ok 0.0) (.ok 0.0) with ⟨_ | _, t⟩
  · rwa [hr] at hplace
  · rw [hr] at hplace
    exact creep_keeps hP hplace _ _

end Keeps

/-- The recorded motions lead to the live pose and the history is a chain of poses from the start,
or the motions cannot be carried out again. -/
def Accounted (s : Session α) : Prop :=
  s.InStep ∧ s.Linked s.setup.start ∨ s.Astray

theorem Effect.accounted {s : Session α} {r : Except (Fault α) β × Session α} (h : s.Effect r)
    (hs : s.Accounted) : r.2.Accounted := by
  rcases hs with ⟨hin, hlinked⟩ | hastray
  · by_cases hfail : s.FailsInMotion r
    · exact .inr (hfail.astray hin h.extends)
    · refine .inl ⟨h.inStep hin hfail, ?_⟩
      rw [h.extends.setup]
      exact h.linked hlinked hfail
  · exact .inr (hastray.extends h.extends)

theorem accounted_start {setup : Setup α} {s : Session α} (h : start setup = .ok s) :
    s.Accounted := by
  refine .inl ⟨(inStep_start h).1, ?_⟩
  rw [(start_eq_ok h).2]
  rfl

/-- With a trajectory, nothing has failed. -/
theorem Accounted.of_trajectory {s : Session α} (hs : s.Accounted) {samples : List (Sample α)}
    (h : s.trajectory = .ok samples) : s.InStep ∧ s.Linked s.setup.start := by
  rcases hs with hs | hastray
  · exact hs
  · obtain ⟨f, hf⟩ := hastray.trajectory
    rw [h] at hf
    cases hf

end Session

namespace CommandLine

theorem solve_keeps {P : Session Binary64 → Prop}
    (hP : ∀ {β : Type} {s : Session Binary64} {r : Except (Fault Binary64) β × Session Binary64},
      s.Effect r → P s → P r.2)
    {s : Session Binary64} (hs : P s) (mission : Mission) : P (solve mission s).2 := by
  unfold solve Script.find
  by_cases hscript : mission.id = "sensor_stop"
  · rw [if_pos hscript]
    exact Session.stopAtWall_keeps hP hs
  · rw [if_neg hscript]
    exact Session.obeyAll_keeps hP hs _

structure Conducts (settings : Settings) (mission : Mission) (step : TimeStep Binary64)
    (c : Conduct) : Prop where
  checked : TimeStep.check settings.dt = .ok step
  trajectory : Trajectory.build c.session.motions mission.world.start step = .ok c.samples
  last : c.samples.getLast? = some c.session.live
  verdict : c.verdict = mission.world.goal.judgePose c.session.pose
  metrics : c.metrics = ⟨c.verdict.success, c.verdict.finalDistance,
    Trajectory.pathLength c.samples, c.session.live.time, c.samples.length,
    c.session.motions.length, some mission.id, []⟩
  rows : PoseTable.ofSession c.session = .ok c.rows
  linked : c.session.Linked c.session.setup.start

theorem conduct_eq_ok {settings : Settings} {mission : Mission} {c : Conduct}
    (h : conduct settings mission = .ok c) : ∃ step, Conducts settings mission step c := by
  unfold conduct at h
  obtain ⟨s₀, h₀, h⟩ := bind_ok h
  have hsolve := solve_keeps (P := fun s => s.Accounted ∧ s.Extends s₀)
    (fun he hs => ⟨he.accounted hs.1, he.extends.trans hs.2⟩)
    ⟨Session.accounted_start h₀, .refl s₀⟩ mission
  rcases hs : solve mission s₀ with ⟨result, s⟩
  rw [hs] at hsolve h
  obtain ⟨hstep, hfresh⟩ := Session.start_eq_ok h₀
  obtain ⟨haccounted, hext⟩ := hsolve
  obtain ⟨⟨⟩, hresult, h⟩ := bind_ok h
  obtain ⟨samples, hsamples, h⟩ := bind_ok h
  obtain ⟨verdict, hverdict, h⟩ := bind_ok h
  obtain ⟨metrics, hmetrics, h⟩ := bind_ok h
  obtain ⟨rows, hrows, h⟩ := bind_ok h
  cases h
  obtain ⟨hin, hlinked⟩ := haccounted.of_trajectory hsamples
  obtain ⟨_, hbuild, hlast⟩ := Trajectory.build_of_leads hin
  obtain rfl := Except.ok.inj (hsamples.symm.trans hbuild)
  obtain ⟨hlast', hjudge⟩ := mission.world.goal.judge_of_last hlast
  rw [Attempt.complete_start, hjudge] at hverdict
  cases hverdict
  rw [RunMetrics.ofTrajectory, hjudge, hlast'] at hmetrics
  cases hmetrics
  rw [Session.trajectory, hext.dt, hext.setup] at hsamples
  refine ⟨s₀.dt, hstep, ?_, hlast, rfl, rfl, hrows, hlinked⟩
  rw [hfresh] at hsamples ⊢
  exact hsamples

/-- The last row of the table shows the pose of the last sample. -/
theorem Conducts.last_row {settings : Settings} {mission : Mission} {step : TimeStep Binary64}
    {c : Conduct} (h : Conducts settings mission step c) :
    ∃ earlier row, c.rows = earlier ++ [row] ∧ c.session.pose.text = .ok row.after := by
  obtain ⟨hlength, -, -, text, htext, hafter⟩ := PoseTable.ofSession_of_linked h.linked h.rows
  rcases List.eq_nil_or_concat c.rows with hnil | ⟨earlier, row, hrows⟩
  · rw [hnil] at hlength
    cases hlength
  · rw [List.concat_eq_append] at hrows
    rw [hrows, List.map_append] at hafter
    obtain ⟨-, hrow⟩ := List.append_inj' hafter rfl
    exact ⟨earlier, row, hrows, htext.trans (congrArg _ (List.cons.inj hrow).1.symm)⟩

end CommandLine

end PlanarDrive
