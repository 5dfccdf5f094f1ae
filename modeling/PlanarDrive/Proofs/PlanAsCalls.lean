import PlanarDrive.Proofs.SingleCalls

/-!
# Plans and calls

A plan of known operations does command by command what a script does that calls the operations
one after the other: the same sessions, the same refusal at the same place. On a fresh session that
refuses nothing, what stands recorded is the plan compiled as a whole, and the trajectory is that of
its drives.
-/

namespace PlanarDrive

variable {α : Type} [Scalar α]

/-- Calls operations one after the other, up to the first call that is refused. -/
def Program.calling : List (Op × α) → Program α
  | [] => .stop (.ok ())
  | (op, arg) :: rest => .act (.call (.steer op (.ok arg))) fun
    | .ok _ => calling rest
    | .error f => .stop (.error f)

/-- What a call meets, answers and leaves, whichever way it was asked for. -/
def Exchange.effect (e : Exchange α) : Session α × Except (Fault α) (Option α) × Session α :=
  (e.before, e.answer, e.after)

namespace Session

/-- A plan looks its operation up by name, and a call carries its own out. -/
theorem obey_command (s : Session α) (op : Op) (arg : α) :
    s.obey (op.command arg) = s.steer op (.ok arg) := by
  rcases s.steer_eq op arg with ⟨hsteer, hle⟩ | ⟨hsteer, hlt⟩
  · rw [obey_of_le hle, hsteer]
  · rw [obey_of_lt hlt, hsteer]

theorem act_command (s : Session α) (op : Op) (arg : α) :
    s.act (.plan [op.command arg]) = s.act (.call (.steer op (.ok arg))) := by
  rw [act_plan_singleton, obey_command]
  rfl

theorem effects_obeyEach (s : Session α) (steps : List (Op × α)) :
    (s.obeyEach (steps.map fun x => x.1.command x.2)).map Exchange.effect =
      ((Program.calling steps).exchanges s).map Exchange.effect := by
  induction steps generalizing s with
  | nil => rfl
  | cons x rest ih =>
    obtain ⟨op, arg⟩ := x
    rw [List.map_cons, obeyEach, act_command, obey_command]
    rcases hr : s.steer op (.ok arg) with ⟨f | _, t⟩
    · simp [Program.calling, Program.exchanges, Exchange.effect, act, call, hr, Except.map]
    · simp [Program.calling, Program.exchanges, Exchange.effect, act, call, hr, Except.map, ih]

theorem obeyAll_eq_exec (s : Session α) (steps : List (Op × α)) :
    s.obeyAll (steps.map fun x => x.1.command x.2) = (Program.calling steps).exec s := by
  induction steps generalizing s with
  | nil => rfl
  | cons x rest ih =>
    obtain ⟨op, arg⟩ := x
    rw [List.map_cons, obeyAll, obey_command]
    rcases hr : s.steer op (.ok arg) with ⟨f | _, t⟩
    · simp [Program.calling, Program.exec, act, call, hr, Except.map]
    · simp [Program.calling, Program.exec, act, call, hr, Except.map, ih]

/-- A call that is recorded adds its motion, if it has one, and its entry to the history. -/
theorem record_ok {s t : Session α} {label : String} {m : Option (Motion α)}
    (h : s.record label m = (.ok (), t)) :
    t.motions = s.motions ++ m.toList ∧ t.history = s.history ++ [⟨label, s.pose, t.pose⟩] := by
  cases m with
  | none =>
    obtain ⟨-, rfl⟩ := Prod.mk.inj h
    exact ⟨(List.append_nil _).symm, rfl⟩
  | some m =>
    unfold record at h
    split at h
    · next u hu =>
      obtain ⟨-, rfl⟩ := Prod.mk.inj hu
      obtain ⟨-, rfl⟩ := Prod.mk.inj h
      exact ⟨rfl, rfl⟩
    · simp at h

/-- A command that is carried out records the drive that it is translated to, under its text. -/
theorem obey_ok {s t : Session α} {c : Command α} (h : s.obey c = (.ok (), t)) :
    ∃ d, c.drive s.setup.speeds = .ok d ∧ t.motions = s.motions ++ d.toList.map .drive ∧
      t.history = s.history ++ [⟨c.text, s.pose, t.pose⟩] := by
  by_cases hle : (s.calls + 1 : Nat) ≤ s.setup.maxCalls
  · rw [obey_of_le hle] at h
    cases hd : c.drive s.setup.speeds with
    | error f => simp [hd, recordDrive] at h
    | ok d =>
      rw [hd] at h
      obtain ⟨hmotions, hhistory⟩ := record_ok h
      refine ⟨d, rfl, hmotions.trans ?_, hhistory⟩
      cases d <;> rfl
  · simp [obey_of_lt (Int.not_le.1 hle)] at h

theorem history_of_refused {s t : Session α} {c : Command α} {f : Fault α}
    (h : s.obey c = (.error f, t)) : t.history = s.history := by
  have heffect := s.effect_obey c
  rw [h] at heffect
  cases heffect <;> rfl

/-- The history names the commands that were carried out, up to the one that was refused. -/
theorem labels_obeyAll {s t : Session α} {commands : List (Command α)}
    {r : Except (Fault α) Unit} (h : s.obeyAll commands = (r, t)) :
    ∃ done rest, commands = done ++ rest ∧ (r = .ok () ↔ rest = []) ∧
      t.history.map (·.label) = s.history.map (·.label) ++ done.map Command.text := by
  induction commands generalizing s with
  | nil =>
    obtain ⟨rfl, rfl⟩ := Prod.mk.inj h
    exact ⟨[], [], rfl, by simp, by simp⟩
  | cons c rest ih =>
    rcases hr : s.obey c with ⟨f | _, u⟩
    · simp only [obeyAll, hr] at h
      obtain ⟨rfl, rfl⟩ := Prod.mk.inj h
      exact ⟨[], c :: rest, rfl, by simp, by simp [history_of_refused hr]⟩
    · simp only [obeyAll, hr] at h
      obtain ⟨d, -, -, hu⟩ := obey_ok hr
      obtain ⟨done, left, rfl, hend, hlabels⟩ := ih h
      refine ⟨c :: done, left, rfl, hend, ?_⟩
      rw [hlabels, hu]
      simp

theorem extends_obeyAll (s : Session α) (commands : List (Command α)) :
    (s.obeyAll commands).2.Extends s :=
  obeyAll_keeps (P := (·.Extends s)) (fun he hs => he.extends.trans hs) (.refl s) commands

theorem setup_obey {s t : Session α} {c : Command α} {r : Except (Fault α) Unit}
    (h : s.obey c = (r, t)) : t.setup = s.setup := by
  have hext := (s.effect_obey c).extends
  rw [h] at hext
  exact hext.setup

theorem motions_obeyAll {s t : Session α} {commands : List (Command α)}
    (h : s.obeyAll commands = (.ok (), t)) :
    ∃ drives, Command.plan commands s.setup.speeds = .ok drives ∧
      t.motions = s.motions ++ drives.map .drive := by
  induction commands generalizing s with
  | nil =>
    obtain ⟨-, rfl⟩ := Prod.mk.inj h
    exact ⟨[], rfl, by simp⟩
  | cons c rest ih =>
    rcases hr : s.obey c with ⟨f | _, u⟩
    · simp [obeyAll, hr] at h
    · simp only [obeyAll, hr] at h
      obtain ⟨d, hd, hu, -⟩ := obey_ok hr
      obtain ⟨drives, hplan, ht⟩ := ih h
      rw [setup_obey hr] at hplan
      refine ⟨_, Command.plan_cons hd hplan, ?_⟩
      rw [ht, hu, List.append_assoc, List.map_append]

theorem not_planFailsInMotion_of_ok {s : Session α} {commands : List (Command α)}
    (h : (s.obeyAll commands).1 = .ok ()) : ¬ s.PlanFailsInMotion commands := by
  induction commands generalizing s with
  | nil => exact id
  | cons c rest ih =>
    rcases hr : s.obey c with ⟨f | _, u⟩
    · simp [obeyAll, hr] at h
    · simp only [obeyAll, hr] at h
      simp only [PlanFailsInMotion, hr, true_and, not_or]
      exact ⟨not_failsInMotion_of_ok rfl, ih h⟩

end Session

/-- Carrying out a plan of known operations and calling the operations one after the other leave
the same session after every command, and end with the same refusal, if any, at the same command.
The history names each operation that was carried out, with its number. On a fresh session, when
nothing is refused, the recorded motions are the drives that the plan is compiled to, and the
trajectory is the one that these drives have from the start. -/
theorem plan_runs_as_calls_and_as_compiled (s : Session α) (steps : List (Op × α)) :
    (s.obeyEach (steps.map fun x => x.1.command x.2)).map Exchange.effect =
        ((Program.calling steps).exchanges s).map Exchange.effect ∧
      s.obeyAll (steps.map fun x => x.1.command x.2) = (Program.calling steps).exec s ∧
      (∀ r t, s.obeyAll (steps.map fun x => x.1.command x.2) = (r, t) →
        ∃ done rest, steps = done ++ rest ∧ (r = .ok () ↔ rest = []) ∧
          t.history.map (·.label) = s.history.map (·.label) ++
            done.map fun x => x.1.name ++ "(" ++ Scalar.text x.2 ++ ")") ∧
      ∀ setup t, Session.start setup = .ok s →
        s.obeyAll (steps.map fun x => x.1.command x.2) = (.ok (), t) →
        ∃ drives step samples,
          Command.plan (steps.map fun x => x.1.command x.2) setup.speeds = .ok drives ∧
          t.motions = drives.map .drive ∧ TimeStep.check setup.dt = .ok step ∧
          Trajectory.build (drives.map .drive) setup.start step = .ok samples ∧
          t.trajectory = .ok samples := by
  refine ⟨s.effects_obeyEach steps, s.obeyAll_eq_exec steps, fun r t hrun => ?_,
    fun setup t h₀ hrun => ?_⟩
  · obtain ⟨done, rest, hsplit, hend, hlabels⟩ := Session.labels_obeyAll hrun
    obtain ⟨done, rest, rfl, rfl, rfl⟩ := List.map_eq_append_iff.1 hsplit
    refine ⟨done, rest, rfl, hend.trans List.map_eq_nil_iff, ?_⟩
    rw [hlabels, List.map_map]
    rfl
  obtain ⟨hstep, hfresh⟩ := Session.start_eq_ok h₀
  obtain ⟨hin, hsetup⟩ := Session.inStep_start h₀
  obtain ⟨drives, hplan, hmotions⟩ := Session.motions_obeyAll hrun
  have hfirst : s.motions = [] := by rw [hfresh]
  rw [hfirst, List.nil_append] at hmotions
  rw [hsetup] at hplan
  have hthen := Session.obeyAll_inStep hin
    (Session.not_planFailsInMotion_of_ok (congrArg Prod.fst hrun))
  have hext := s.extends_obeyAll (steps.map fun x => x.1.command x.2)
  rw [hrun] at hthen hext
  obtain ⟨samples, hbuild, -⟩ := Trajectory.build_of_leads hthen
  refine ⟨drives, s.dt, samples, hplan, hmotions, hstep, ?_, hbuild⟩
  rwa [hmotions, hext.setup, hsetup, hext.dt] at hbuild

/-- A little ahead, to the right, not at all, and to the left. -/
def zigzag : List (Op × Binary64) :=
  [(.moveForward, 0.01), (.turnRight, 1.0), (.moveForward, 0.0), (.turnLeft, 2.0)]

theorem plan_runs_as_calls_and_as_compiled_zigzag :
    Session.start openField.setup = .ok openField ∧
      ∃ (t : Session Binary64) (drives : List (Drive Binary64)) (samples : List (Sample Binary64)),
        openField.obeyAll (zigzag.map fun x => x.1.command x.2) = (.ok (), t) ∧
        (Program.calling zigzag).exec openField = (.ok (), t) ∧
        t.motions = drives.map .drive ∧ drives.length = 3 ∧
        t.history.map (·.label) =
          ["move_forward(0.01)", "turn_right(1)", "move_forward(0)", "turn_left(2)"] ∧
        Trajectory.build (drives.map .drive) .origin openField.dt = .ok samples ∧
        t.trajectory = .ok samples := by
  have h₀ : Session.start openField.setup = .ok openField := rfl
  have hok : (openField.obeyAll (zigzag.map fun x => x.1.command x.2)).1 = .ok () := by
    decide +kernel
  have hlength :
      (openField.obeyAll (zigzag.map fun x => x.1.command x.2)).2.motions.length = 3 := by
    decide +kernel
  obtain ⟨-, hcalls, hlabels, hcompiled⟩ := plan_runs_as_calls_and_as_compiled openField zigzag
  rcases hrun : openField.obeyAll (zigzag.map fun x => x.1.command x.2) with ⟨r, t⟩
  rw [hrun] at hok hlength hcalls
  obtain rfl : r = .ok () := hok
  obtain ⟨done, rest, hsplit, hend, hnames⟩ := hlabels _ t hrun
  obtain rfl := hend.1 rfl
  rw [List.append_nil] at hsplit
  subst hsplit
  obtain ⟨drives, step, samples, -, hmotions, hstep, hbuild, htrajectory⟩ := hcompiled _ t h₀ hrun
  cases hstep
  refine ⟨h₀, t, drives, samples, hrun, hcalls.symm, hmotions, ?_, hnames.trans ?_, hbuild,
    htrajectory⟩
  · rw [← hlength, hmotions, List.length_map]
  · decide +kernel

end PlanarDrive
