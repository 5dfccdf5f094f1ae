import PlanarDrive.Goal

/-!
# Attempts are completed once

A trajectory without a sample cannot be judged and leaves an attempt as it is. The first one with a
sample is judged and completes the attempt, whatever the verdict. From then on every trajectory is
refused and the verdict stays.
-/

namespace PlanarDrive

variable {α : Type} [Scalar α]

namespace Goal

theorem judge_nil (goal : Goal α) : goal.judge [] = .error .outOfRange :=
  rfl

theorem judge_of_last (goal : Goal α) {samples : List (Sample α)} {last : Sample α}
    (h : samples.getLast? = some last) :
    Trajectory.last samples = .ok last ∧ goal.judge samples = .ok (goal.judgePose last.pose) := by
  have hlast : Trajectory.last samples = .ok last := by simp [Trajectory.last, h]
  exact ⟨hlast, by rw [judge, hlast]; rfl⟩

theorem exists_judge_eq_ok (goal : Goal α) {samples : List (Sample α)} (h : samples ≠ []) :
    ∃ v, goal.judge samples = .ok v :=
  ⟨_, (goal.judge_of_last (List.getLast?_eq_some_getLast h)).2⟩

end Goal

namespace Attempt

theorem complete_of_verdict {a : Attempt α} {v : Verdict α} (h : a.verdict = some v)
    (samples : List (Sample α)) :
    a.complete samples = (.error (.alreadyCompleted a.mission), a) := by
  rw [complete, h]

theorem complete_of_judge_eq_ok {a : Attempt α} (ha : a.verdict = none)
    {samples : List (Sample α)} {v : Verdict α} (h : a.goal.judge samples = .ok v) :
    a.complete samples = (.ok v, { a with verdict := some v }) := by
  rw [complete, ha, h]

theorem complete_of_judge_eq_error {a : Attempt α} (ha : a.verdict = none)
    {samples : List (Sample α)} {f : Fault α} (h : a.goal.judge samples = .error f) :
    a.complete samples = (.error f, a) := by
  rw [complete, ha, h]

theorem complete_start (mission : String) (goal : Goal α) (samples : List (Sample α)) :
    ((start mission goal).complete samples).1 = goal.judge samples := by
  cases h : goal.judge samples with
  | error f => rw [complete_of_judge_eq_error rfl h]
  | ok v => rw [complete_of_judge_eq_ok rfl h]

/-- What trajectories are answered that are handed in one after the other, each with the attempt
that it leaves. -/
def trials : Attempt α → List (List (Sample α)) →
    List (Except (Fault α) (Verdict α) × Attempt α)
  | _, [] => []
  | a, samples :: rest => a.complete samples :: (a.complete samples).2.trials rest

theorem trials_of_verdict {a : Attempt α} {v : Verdict α} (h : a.verdict = some v)
    (trajectories : List (List (Sample α))) :
    a.trials trajectories =
      trajectories.map fun _ => (.error (.alreadyCompleted a.mission), a) := by
  induction trajectories with
  | nil => rfl
  | cons samples rest ih => rw [trials, complete_of_verdict h, ih, List.map_cons]

/-- Trajectories without a sample leave the attempt to those that follow. -/
theorem trials_append_of_empty {a : Attempt α} (ha : a.verdict = none)
    {empty : List (List (Sample α))} (h : ∀ samples ∈ empty, samples = [])
    (later : List (List (Sample α))) :
    a.trials (empty ++ later) = empty.map (fun _ => (.error .outOfRange, a)) ++ a.trials later := by
  induction empty with
  | nil => rfl
  | cons samples rest ih =>
    rw [List.forall_mem_cons] at h
    obtain ⟨rfl, hrest⟩ := h
    rw [List.cons_append, trials, complete_of_judge_eq_error ha a.goal.judge_nil, ih hrest,
      List.map_cons, List.cons_append]

end Attempt

/-- Whatever trajectories are handed in one after the other, those without a sample that come before
any with one are refused for want of it and leave the attempt open. The first that has a sample is
answered with its verdict and completes the attempt. All later ones, with samples or without, are
refused, and the verdict is never changed. -/
theorem attempt_completes_once (mission : String) (goal : Goal α)
    (trajectories : List (List (Sample α))) :
    (Attempt.start mission goal).completed = false ∧
      ((∀ samples ∈ trajectories, samples = []) ∧
          (Attempt.start mission goal).trials trajectories =
            trajectories.map (fun _ => (.error .outOfRange, ⟨mission, goal, none⟩)) ∨
        ∃ early first later verdict, trajectories = early ++ first :: later ∧
          (∀ samples ∈ early, samples = []) ∧ first ≠ [] ∧ goal.judge first = .ok verdict ∧
          (⟨mission, goal, some verdict⟩ : Attempt α).completed = true ∧
          (Attempt.start mission goal).trials trajectories =
            early.map (fun _ => (.error .outOfRange, ⟨mission, goal, none⟩)) ++
              (.ok verdict, ⟨mission, goal, some verdict⟩) ::
                later.map fun _ =>
                  (.error (.alreadyCompleted mission), ⟨mission, goal, some verdict⟩)) := by
  have hopen : (Attempt.start mission goal).verdict = none := rfl
  refine ⟨rfl, ?_⟩
  cases hfirst : trajectories.find? (!·.isEmpty) with
  | none =>
    have hempty : ∀ samples ∈ trajectories, samples = [] := by
      simpa using List.find?_eq_none.1 hfirst
    refine .inl ⟨hempty, ?_⟩
    have htrials := Attempt.trials_append_of_empty hopen hempty []
    rwa [List.append_nil, Attempt.trials, List.append_nil] at htrials
  | some first =>
    obtain ⟨hne, early, later, rfl, hearly⟩ := List.find?_eq_some_iff_append.1 hfirst
    have hne : first ≠ [] := by simpa using hne
    have hearly : ∀ samples ∈ early, samples = [] := by simpa using hearly
    obtain ⟨verdict, hjudge⟩ := goal.exists_judge_eq_ok hne
    refine .inr ⟨early, first, later, verdict, rfl, hearly, hne, hjudge, rfl, ?_⟩
    rw [Attempt.trials_append_of_empty hopen hearly, Attempt.trials,
      Attempt.complete_of_judge_eq_ok hopen hjudge, Attempt.trials_of_verdict rfl]
    rfl

end PlanarDrive
