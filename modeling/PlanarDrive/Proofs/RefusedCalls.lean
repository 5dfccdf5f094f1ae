import PlanarDrive.Proofs.SingleCalls

/-!
# What a refused call leaves behind

A call may be refused at the limit, for an argument, for its translation into a drive or for what
the sensor meets. Then nothing but the counter has changed. Only a call whose motion fails on the
way leaves more: its motion stays recorded, the rover stays where it got to, and the recorded
motions have no trajectory any more. The history keeps a refused call out either way.
-/

namespace PlanarDrive

variable {α β : Type} [Scalar α]

namespace Session

/-- A refusal either counts the call and does nothing else, or records a motion that fails. -/
theorem Effect.refusal {s t : Session α} {f : Fault α} (h : s.Effect (.error f, t) (β := β)) :
    t = s.tick ∨ ∃ m, (m.perform s.dt s.live).fault = some f ∧ t = s.carried m := by
  cases h with
  | limited h => exact .inl rfl
  | refused h f => exact .inl rfl
  | failed h f m hm => exact .inr ⟨m, hm, rfl⟩

theorem failsInMotion_carried {s : Session α} {m : Motion α} {f : Fault α}
    (hm : (m.perform s.dt s.live).fault = some f) :
    s.FailsInMotion (.error f, s.carried m) (β := β) :=
  ⟨m, f, rfl, rfl, hm⟩

theorem not_failsInMotion_tick {s : Session α} {r : Except (Fault α) β} :
    ¬ s.FailsInMotion (r, s.tick) := by
  rintro ⟨m, f, -, hm, -⟩
  have hlength := congrArg List.length hm
  simp [tick] at hlength

/-- As long as there is a trajectory, no call has failed in its motion. -/
theorem Calls.inStep_of_trajectory {s : Session α} {es : List (Exchange α)} (h : s.Calls es)
    (hs : s.InStep) {samples : List (Sample α)}
    (ht : (s.reached es).trajectory = .ok samples) : (s.reached es).InStep := by
  apply h.chained.inStep hs
  intro e he hfail
  obtain ⟨f, hf⟩ := (h.chained.astray hs ⟨e, he, hfail⟩).trajectory
  rw [ht] at hf
  cases hf

theorem trajectory_carried {s : Session α} (hs : s.InStep) {m : Motion α} {f : Fault α}
    (hm : (m.perform s.dt s.live).fault = some f) : (s.carried m).trajectory = .error f := by
  have hext : (s.carried m).Extends s := ⟨rfl, rfl, List.prefix_append _ _⟩
  have hfault := congrArg Trace.fault (replay_of_motions_eq_append hs hext rfl)
  exact Trajectory.build_eq_error_iff.2 (hfault.trans hm)

end Session

/-- On every run a refused call has only been counted, and leaves the trajectory as it was, unless
it fails in its motion. Then the motion that failed is recorded, the rover is where it got to, the
history is as it was, and a trajectory that existed before the call does not exist after it. -/
theorem refused_call_only_counted_iff {setup : Setup α} {s₀ : Session α}
    (h₀ : Session.start setup = .ok s₀) (p : Program α) {e : Exchange α} (he : e ∈ p.calls s₀)
    {f : Fault α} (hf : e.answer = .error f) :
    (e.after = e.before.tick ↔ ¬ e.FailsInMotion) ∧
      (¬ e.FailsInMotion → e.after.trajectory = e.before.trajectory) ∧
      (e.FailsInMotion → e.after.history = e.before.history ∧
        (∃ m, (m.perform e.before.dt e.before.live).fault = some f ∧
          e.after.motions = e.before.motions ++ [m] ∧
          e.after.live = (m.perform e.before.dt e.before.live).last e.before.live) ∧
        ∀ samples, e.before.trajectory = .ok samples → e.after.trajectory = .error f) := by
  have hcalls := p.calls_calls s₀
  obtain ⟨past, rest, hsplit⟩ := List.append_of_mem he
  rw [hsplit] at hcalls
  have hcall := hcalls.isCall e (by simp)
  have heffect := hcall.effect
  rw [hcall.failsInMotion_iff, hf]
  rw [hf] at heffect
  rcases heffect.refusal with hafter | ⟨m, hm, hafter⟩
  · have hnot : ¬ e.before.FailsInMotion (Except.error f, e.after) (β := Option α) := by
      rw [hafter]
      exact Session.not_failsInMotion_tick
    exact ⟨iff_of_true hafter hnot, fun _ => by rw [hafter]; rfl, fun h => absurd h hnot⟩
  · have hfails : e.before.FailsInMotion (Except.error f, e.after) (β := Option α) := by
      rw [hafter]
      exact Session.failsInMotion_carried hm
    have hnot : e.after ≠ e.before.tick := fun htick => by
      rw [htick] at hfails
      exact Session.not_failsInMotion_tick hfails
    refine ⟨iff_of_false hnot (not_not_intro hfails), fun h => absurd hfails h, fun _ => ?_⟩
    refine ⟨by rw [hafter]; rfl, ⟨m, hm, by rw [hafter]; rfl, by rw [hafter]; rfl⟩, ?_⟩
    intro samples hsamples
    rw [hcalls.before_eq] at hsamples
    have hin := hcalls.left.inStep_of_trajectory (Session.inStep_start h₀).1 hsamples
    rw [← hcalls.before_eq] at hin
    rw [hafter]
    exact Session.trajectory_carried hin hm

def farthest : Binary64 :=
  ⟨0x7fefffffffffffff⟩

/-- A script that asks for the longest move of all; the time that it takes is not finite. -/
def longMove : Program Binary64 :=
  .act (.call (.steer .moveForward (.ok farthest))) fun _ => .stop (.ok ())

theorem refused_call_only_counted_iff_longMove :
    Session.start openField.setup = .ok openField ∧
      ∃ e ∈ longMove.calls openField, e.answer = .error .tooLarge ∧ e.FailsInMotion ∧
        ∀ samples, e.before.trajectory = .ok samples → e.after.trajectory = .error .tooLarge := by
  have h₀ : Session.start openField.setup = .ok openField := rfl
  have hfail : Exchange.FailsInMotion ⟨openField, .call (.steer .moveForward (.ok farthest)),
      .error .tooLarge, (openField.call (.steer .moveForward (.ok farthest))).2⟩ :=
    ⟨.drive ⟨0.25, 0.0, .infinity⟩, .tooLarge, rfl, rfl, rfl⟩
  refine ⟨h₀, _, List.mem_cons_self, rfl, hfail, ?_⟩
  exact ((refused_call_only_counted_iff h₀ longMove List.mem_cons_self rfl).2.2 hfail).2.2

/-- Not every refused call leaves the recorded motions as they were. -/
theorem refused_longMove_stays_recorded :
    ¬ ∀ e ∈ longMove.calls openField, ∀ f, e.answer = .error f →
      e.after.motions = e.before.motions ∧ e.after.history = e.before.history ∧
        e.after.live = e.before.live ∧ ∃ samples, e.after.trajectory = .ok samples := by
  intro h
  have hrefused : (openField.call (.steer .moveForward (.ok farthest))).1 = .error .tooLarge := rfl
  have hmotions := (h _ List.mem_cons_self _ hrefused).1
  cases hmotions

end PlanarDrive
