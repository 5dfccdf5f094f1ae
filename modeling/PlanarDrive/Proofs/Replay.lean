import PlanarDrive.Trajectory

/-!
# Motions carried out one after the other

The samples of a list of motions are those of its first part, followed by those of the second
part from where the first one ended. A motion that fails ends the list, whatever stands behind
it. A trajectory is the start followed by these samples, and exists when no motion fails.
-/

namespace PlanarDrive

variable {α : Type}

theorem Trace.last_append (t u : Trace α) (f : Option (Fault α)) (s : Sample α) :
    Trace.last ⟨t.samples ++ u.samples, f⟩ s = u.last (t.last s) := by
  cases hu : u.samples with
  | nil => simp [Trace.last, hu]
  | cons y ys => simp [Trace.last, hu, List.getLast?_append, List.getLastD_eq_getLast?]

variable [Scalar α] {dt : TimeStep α}

namespace Motion

theorem performAll_cons {m : Motion α} {s : Sample α} (h : (m.perform dt s).fault = none)
    (rest : List (Motion α)) :
    performAll dt (m :: rest) s =
      ⟨(m.perform dt s).samples ++ (performAll dt rest ((m.perform dt s).last s)).samples,
        (performAll dt rest ((m.perform dt s).last s)).fault⟩ := by
  simp only [performAll, h]

theorem performAll_append {xs : List (Motion α)} {s : Sample α}
    (h : (performAll dt xs s).fault = none) (ys : List (Motion α)) :
    performAll dt (xs ++ ys) s =
      ⟨(performAll dt xs s).samples ++
          (performAll dt ys ((performAll dt xs s).last s)).samples,
        (performAll dt ys ((performAll dt xs s).last s)).fault⟩ := by
  induction xs generalizing s with
  | nil => rfl
  | cons m xs ih =>
    cases hm : (m.perform dt s).fault with
    | some f => simp [performAll, hm] at h
    | none =>
      simp only [performAll, hm] at h
      simp only [List.cons_append, performAll, hm, ih h, Trace.last_append, List.append_assoc]

theorem performAll_append_of_fault {xs : List (Motion α)} {s : Sample α} {f : Fault α}
    (h : (performAll dt xs s).fault = some f) (ys : List (Motion α)) :
    performAll dt (xs ++ ys) s = performAll dt xs s := by
  induction xs generalizing s with
  | nil => simp [performAll, Trace.empty] at h
  | cons m xs ih =>
    cases hm : (m.perform dt s).fault with
    | some g => simp [performAll, hm]
    | none =>
      simp only [performAll, hm] at h
      simp only [List.cons_append, performAll, hm, ih h]

@[simp] theorem performAll_singleton (m : Motion α) (s : Sample α) :
    performAll dt [m] s = m.perform dt s := by
  rcases hm : m.perform dt s with ⟨samples, fault⟩
  cases fault <;> simp [performAll, hm, Trace.empty]

/-- The motions can all be carried out from `s`, and lead to `t`. -/
structure Leads (dt : TimeStep α) (motions : List (Motion α)) (s t : Sample α) : Prop where
  fault : (performAll dt motions s).fault = none
  last : (performAll dt motions s).last s = t

theorem Leads.nil (s : Sample α) : Leads dt [] s s :=
  ⟨rfl, rfl⟩

theorem leads_singleton_iff {m : Motion α} {s t : Sample α} :
    Leads dt [m] s t ↔ (m.perform dt s).fault = none ∧ (m.perform dt s).last s = t := by
  constructor
  · rintro ⟨hf, hl⟩
    rw [performAll_singleton] at hf hl
    exact ⟨hf, hl⟩
  · rintro ⟨hf, hl⟩
    rw [← performAll_singleton] at hf hl
    exact ⟨hf, hl⟩

theorem Leads.append {xs ys : List (Motion α)} {s t u : Sample α} (hx : Leads dt xs s t)
    (hy : Leads dt ys t u) : Leads dt (xs ++ ys) s u := by
  have happ := performAll_append hx.fault ys
  rw [hx.last] at happ
  refine ⟨by rw [happ, hy.fault], ?_⟩
  rw [happ, Trace.last_append, hx.last, hy.last]

end Motion

namespace Trajectory

theorem build_eq_ok_iff {motions : List (Motion α)} {start : Pose α}
    {samples : List (Sample α)} :
    build motions start dt = .ok samples ↔
      (Motion.performAll dt motions (.initial start)).fault = none ∧
        samples = .initial start :: (Motion.performAll dt motions (.initial start)).samples := by
  cases h : (Motion.performAll dt motions (.initial start)).fault with
  | none => simp [build, h, eq_comm]
  | some f => simp [build, h]

/-- Motions that lead somewhere have a trajectory, which ends there. -/
theorem build_of_leads {motions : List (Motion α)} {start : Pose α} {t : Sample α}
    (h : Motion.Leads dt motions (.initial start) t) :
    ∃ samples, build motions start dt = .ok samples ∧ samples.getLast? = some t := by
  refine ⟨_, build_eq_ok_iff.2 ⟨h.fault, rfl⟩, ?_⟩
  rw [List.getLast?_cons, ← h.last, Trace.last, List.getLastD_eq_getLast?]

theorem build_eq_error_iff {motions : List (Motion α)} {start : Pose α} {f : Fault α} :
    build motions start dt = .error f ↔
      (Motion.performAll dt motions (.initial start)).fault = some f := by
  cases h : (Motion.performAll dt motions (.initial start)).fault with
  | none => simp [build, h]
  | some g => simp [build, h]

end Trajectory

end PlanarDrive
