import PlanarDrive.Binary64.Arithmetic
import PlanarDrive.Proofs.Replay
import PlanarDrive.Proofs.Run

/-!
# The live pose and the playback of the recorded motions

A session moves its rover as the calls come in, and builds a trajectory from the recorded
motions anew whenever it is asked to. Both stay in step along every run of a program, through
plans, refused calls and readings, until a call fails in its motion. From then on the recorded
motions cannot be carried out any more.
-/

namespace PlanarDrive

variable {α β : Type} [Scalar α]

namespace Session

/-- The call was refused because the rover could not carry out the motion that it recorded. -/
def FailsInMotion (s : Session α) (r : Except (Fault α) β × Session α) : Prop :=
  ∃ m f, r.1 = .error f ∧ r.2.motions = s.motions ++ [m] ∧ (m.perform s.dt s.live).fault = some f

def PlanFailsInMotion (s : Session α) : List (Command α) → Prop
  | [] => False
  | c :: rest => s.FailsInMotion (s.obey c) ∨
      (s.obey c).1 = .ok () ∧ (s.obey c).2.PlanFailsInMotion rest

def ActFailsInMotion (s : Session α) : Act α → Prop
  | .call c => s.FailsInMotion (s.call c)
  | .plan commands => s.PlanFailsInMotion commands

end Session

def Exchange.FailsInMotion (e : Exchange α) : Prop :=
  e.before.ActFailsInMotion e.act

namespace Session

def replay (s : Session α) : Trace α :=
  Motion.performAll s.dt s.motions (.initial s.setup.start)

/-- The recorded motions can be carried out again and lead to the live pose and time. -/
def InStep (s : Session α) : Prop :=
  Motion.Leads s.dt s.motions (.initial s.setup.start) s.live

/-- The recorded motions cannot be carried out again. -/
def Astray (s : Session α) : Prop :=
  ∃ f, s.replay.fault = some f

/-- The session `t` comes after `s`: it has more motions and is otherwise set up the same. -/
structure Extends (t s : Session α) : Prop where
  setup : t.setup = s.setup
  dt : t.dt = s.dt
  motions : s.motions <+: t.motions

theorem Extends.refl (s : Session α) : s.Extends s :=
  ⟨rfl, rfl, List.prefix_refl _⟩

theorem Extends.trans {s t u : Session α} (hut : u.Extends t) (hts : t.Extends s) :
    u.Extends s :=
  ⟨hut.setup.trans hts.setup, hut.dt.trans hts.dt, hts.motions.trans hut.motions⟩

theorem Effect.extends {s : Session α} {r : Except (Fault α) β × Session α} (h : s.Effect r) :
    r.2.Extends s := by
  cases h with
  | moved h b label m hm => exact ⟨rfl, rfl, List.prefix_append _ _⟩
  | failed h f m hm => exact ⟨rfl, rfl, List.prefix_append _ _⟩
  | _ => exact ⟨rfl, rfl, List.prefix_refl _⟩

theorem not_failsInMotion_of_ok {s : Session α} {r : Except (Fault α) β × Session α} {b : β}
    (h : r.1 = .ok b) : ¬ s.FailsInMotion r := by
  rintro ⟨m, f, hf, -⟩
  rw [h] at hf
  cases hf

/-- A call fails in its motion exactly when it is refused and has recorded a motion all the same. -/
theorem Effect.failsInMotion_iff {s : Session α} {r : Except (Fault α) β × Session α}
    (h : s.Effect r) :
    s.FailsInMotion r ↔ (∃ f, r.1 = .error f) ∧ r.2.motions ≠ s.motions := by
  constructor
  · rintro ⟨m, f, hf, hm, -⟩
    exact ⟨⟨f, hf⟩, by simp [hm]⟩
  · rintro ⟨⟨f, hf⟩, hm⟩
    cases h with
    | limited h => exact absurd rfl hm
    | refused h g => exact absurd rfl hm
    | failed h g m hg => exact ⟨m, g, rfl, rfl, hg⟩
    | _ => cases hf

theorem replay_of_motions_eq_append {s t : Session α} (h : s.InStep) (ht : t.Extends s)
    {m : Motion α} (hm : t.motions = s.motions ++ [m]) :
    t.replay = ⟨s.replay.samples ++ (m.perform s.dt s.live).samples,
      (m.perform s.dt s.live).fault⟩ := by
  unfold replay
  rw [ht.dt, ht.setup, hm, Motion.performAll_append h.fault, Motion.performAll_singleton, h.last]

theorem Effect.inStep {s : Session α} {r : Except (Fault α) β × Session α} (h : s.Effect r)
    (hs : s.InStep) (hr : ¬ s.FailsInMotion r) : r.2.InStep := by
  cases h with
  | moved h b label m hm => exact hs.append (Motion.leads_singleton_iff.2 ⟨hm, rfl⟩)
  | failed h f m hm => exact absurd ⟨m, f, rfl, rfl, hm⟩ hr
  | _ => exact hs

theorem FailsInMotion.astray {s : Session α} {r : Except (Fault α) β × Session α}
    (h : s.FailsInMotion r) (hs : s.InStep) (he : r.2.Extends s) : r.2.Astray := by
  obtain ⟨m, f, -, hm, hf⟩ := h
  exact ⟨f, by rw [replay_of_motions_eq_append hs he hm, hf]⟩

theorem Astray.extends {s t : Session α} (hs : s.Astray) (h : t.Extends s) : t.Astray := by
  obtain ⟨f, hf⟩ := hs
  obtain ⟨more, hmore⟩ := h.motions
  refine ⟨f, ?_⟩
  unfold replay at hf ⊢
  rw [h.dt, h.setup, ← hmore, Motion.performAll_append_of_fault hf]
  exact hf

theorem obeyAll_inStep {s : Session α} {commands : List (Command α)} (hs : s.InStep)
    (h : ¬ s.PlanFailsInMotion commands) : (s.obeyAll commands).2.InStep := by
  induction commands generalizing s with
  | nil => exact hs
  | cons c rest ih =>
    simp only [PlanFailsInMotion, not_or, not_and] at h
    have hc := (s.effect_obey c).inStep hs h.1
    rcases hr : s.obey c with ⟨_ | _, t⟩
    · simpa only [obeyAll, hr] using hc
    · simp only [hr] at h hc
      simpa only [obeyAll, hr] using ih hc (h.2 trivial)

theorem obeyAll_astray {s : Session α} {commands : List (Command α)} (hs : s.InStep)
    (h : s.PlanFailsInMotion commands) : (s.obeyAll commands).2.Astray := by
  induction commands generalizing s with
  | nil => exact h.elim
  | cons c rest ih =>
    have he := (s.effect_obey c).extends
    by_cases hc : s.FailsInMotion (s.obey c)
    · have ha := hc.astray hs he
      obtain ⟨m, f, hf, -⟩ := hc
      rcases hr : s.obey c with ⟨_ | _, t⟩
      · simpa only [obeyAll, hr] using ha
      · simp [hr] at hf
    · have hin := (s.effect_obey c).inStep hs hc
      obtain ⟨hok, hrest⟩ := h.resolve_left hc
      rcases hr : s.obey c with ⟨_ | _, t⟩
      · simp [hr] at hok
      · simp only [hr] at hin hrest
        simpa only [obeyAll, hr] using ih hin hrest

theorem act_inStep {s : Session α} {a : Act α} (hs : s.InStep) (h : ¬ s.ActFailsInMotion a) :
    (s.act a).2.InStep := by
  cases a with
  | call c => exact (s.effect_call c).inStep hs h
  | plan commands => exact obeyAll_inStep hs h

theorem act_astray {s : Session α} {a : Act α} (hs : s.InStep) (h : s.ActFailsInMotion a) :
    (s.act a).2.Astray := by
  cases a with
  | call c => exact FailsInMotion.astray h hs (s.effect_call c).extends
  | plan commands => exact obeyAll_astray hs h

theorem Chained.extends {s : Session α} {es : List (Exchange α)} (h : s.Chained es) :
    (s.reached es).Extends s :=
  h.keeps (P := (·.Extends s)) (fun he hs => he.extends.trans hs) (.refl s)

theorem Chained.inStep {s : Session α} {es : List (Exchange α)} (h : s.Chained es)
    (hs : s.InStep) (he : ∀ e ∈ es, ¬ e.FailsInMotion) : (s.reached es).InStep := by
  induction es generalizing s with
  | nil => exact hs
  | cons e es ih =>
    obtain ⟨rfl, ha, hrest⟩ := h
    have hafter : e.after = (e.before.act e.act).2 := congrArg Prod.snd ha
    apply ih hrest
    · rw [hafter]
      exact act_inStep hs (he e List.mem_cons_self)
    · exact fun e' h' => he e' (List.mem_cons_of_mem _ h')

theorem Chained.astray {s : Session α} {es : List (Exchange α)} (h : s.Chained es)
    (hs : s.InStep) (he : ∃ e ∈ es, e.FailsInMotion) : (s.reached es).Astray := by
  induction es generalizing s with
  | nil => simp at he
  | cons e es ih =>
    obtain ⟨rfl, ha, hrest⟩ := h
    have hafter : e.after = (e.before.act e.act).2 := congrArg Prod.snd ha
    by_cases hf : e.FailsInMotion
    · have hastray := act_astray hs hf
      rw [← hafter] at hastray
      exact hastray.extends hrest.extends
    · have hin := act_inStep hs hf
      rw [← hafter] at hin
      obtain ⟨e', hmem, hfail⟩ := he
      rcases List.mem_cons.1 hmem with rfl | hmem
      · exact absurd hfail hf
      · exact ih hrest hin ⟨e', hmem, hfail⟩

variable {s : Session α}

theorem inStep_start {setup : Setup α} (h : start setup = .ok s) : s.InStep ∧ s.setup = setup := by
  rw [(start_eq_ok h).2]
  exact ⟨⟨rfl, rfl⟩, rfl⟩

theorem Astray.trajectory (h : s.Astray) : ∃ f, s.trajectory = .error f := by
  obtain ⟨f, hf⟩ := h
  exact ⟨f, Trajectory.build_eq_error_iff.2 hf⟩

theorem Extends.trajectory_prefix {t : Session α} (h : t.Extends s) {xs ys : List (Sample α)}
    (hs : s.trajectory = .ok xs) (ht : t.trajectory = .ok ys) : xs <+: ys := by
  obtain ⟨more, hmore⟩ := h.motions
  obtain ⟨hfault, rfl⟩ := Trajectory.build_eq_ok_iff.1 hs
  obtain ⟨-, rfl⟩ := Trajectory.build_eq_ok_iff.1 ht
  rw [h.dt, h.setup, ← hmore, Motion.performAll_append hfault, List.prefix_cons_inj]
  exact List.prefix_append _ _

/-- A reading is taken at the live pose, which a chained run keeps at the end of playback. -/
theorem front_of_look {d : α} (h : s.look.1 = .ok d) :
    Sensor.front s.setup.obstacles s.pose s.setup.range = .ok d := by
  rcases s.look_eq with ⟨hl, -⟩ | ⟨hl, -⟩
  · rwa [hl] at h
  · simp [hl] at h

theorem look_of_call {d : α} (h : (s.call .look).1 = .ok (some d)) : s.look.1 = .ok d := by
  unfold call at h
  cases hl : s.look.1 with
  | error f => simp [hl, Except.map] at h
  | ok d' => simpa [hl, Except.map] using h

end Session

/-- Along every run of a program on a fresh session, as long as no call has failed in its motion
the trajectory exists, ends at the live pose and time, and extends every earlier one, and every
reading was taken at the end of the trajectory of what had been recorded before it. After a
call has failed in its motion there is no trajectory. -/
theorem live_pose_eq_playback {setup : Setup α} {s₀ : Session α}
    (h₀ : Session.start setup = .ok s₀) (p : Program α) {past : List (Exchange α)}
    (hp : past <+: p.exchanges s₀) :
    ((∀ e ∈ past, ¬ e.FailsInMotion) →
      (∃ samples, (s₀.reached past).trajectory = .ok samples ∧
        samples.getLast? = some (s₀.reached past).live ∧
        ∀ older, older <+: past →
          ∃ earlier, (s₀.reached older).trajectory = .ok earlier ∧ earlier <+: samples) ∧
      ∀ e ∈ past, ∀ d, e.act = .call .look → e.answer = .ok (some d) →
        ∃ samples last, Trajectory.build e.before.motions setup.start s₀.dt = .ok samples ∧
          samples.getLast? = some last ∧
          Sensor.front setup.obstacles last.pose setup.range = .ok d) ∧
    ((∃ e ∈ past, e.FailsInMotion) → ∃ f, (s₀.reached past).trajectory = .error f) := by
  obtain ⟨hin, rfl⟩ := Session.inStep_start h₀
  obtain ⟨future, hfuture⟩ := hp
  have hchain : s₀.Chained past := by
    have h := s₀.chained_exchanges p
    rw [← hfuture, Session.chained_append] at h
    exact h.1
  refine ⟨fun hok => ⟨?_, ?_⟩, fun hfail => (hchain.astray hin hfail).trajectory⟩
  · obtain ⟨samples, hbuild, hlast⟩ := Trajectory.build_of_leads (hchain.inStep hin hok)
    refine ⟨samples, hbuild, hlast, ?_⟩
    rintro older ⟨newer, rfl⟩
    obtain ⟨holder, hnewer⟩ := Session.chained_append.1 hchain
    have hthen := holder.inStep hin fun e he => hok e (List.mem_append_left _ he)
    obtain ⟨earlier, hearlier, -⟩ := Trajectory.build_of_leads hthen
    rw [Session.reached_append] at hbuild
    exact ⟨earlier, hearlier, hnewer.extends.trajectory_prefix hearlier hbuild⟩
  · intro e he d hact hanswer
    obtain ⟨older, newer, rfl⟩ := List.append_of_mem he
    obtain ⟨holder, hb, ha, -⟩ := Session.chained_append.1 hchain
    have hthen := holder.inStep hin fun e' h' => hok e' (List.mem_append_left _ h')
    have hext := holder.extends
    rw [← hb] at hthen hext ha
    have hlook : e.answer = (e.before.act e.act).1 := congrArg Prod.fst ha
    rw [hanswer, hact] at hlook
    have hfront := Session.front_of_look (Session.look_of_call hlook.symm)
    obtain ⟨samples, hbuild, hlast⟩ := Trajectory.build_of_leads hthen
    rw [hext.setup] at hbuild hfront
    rw [hext.dt] at hbuild
    exact ⟨samples, e.before.live, hbuild, hlast, hfront⟩

def openField : Session Binary64 where
  setup := ⟨[], .origin, TimeStep.standard, Sensor.standardRange, 10, .standard⟩
  dt := ⟨TimeStep.standard, by decide, by decide⟩
  live := .initial .origin
  motions := []
  history := []
  calls := 0

/-- A script that looks, jumps, asks in vain for an endless move and looks again. -/
def endlessMove : Program Binary64 :=
  .act (.call .look) fun _ =>
    .act (.call (.place (.ok 1.0) (.ok 2.0) (.ok 0.0))) fun _ =>
      .act (.plan [⟨"move_forward", .infinity⟩]) fun _ =>
        .act (.call .look) fun _ => .stop (.ok ())

theorem live_pose_eq_playback_endlessMove :
    Session.start openField.setup = .ok openField ∧
      (∃ samples,
        (openField.reached ((endlessMove.exchanges openField).take 2)).trajectory = .ok samples ∧
        samples.getLast? = some ⟨0.0, ⟨1.0, 2.0, 0.0⟩⟩) ∧
      ∃ f, (openField.reached (endlessMove.exchanges openField)).trajectory = .error f := by
  have h₀ : Session.start openField.setup = .ok openField := rfl
  refine ⟨h₀, ?_, ?_⟩
  · have hok : ∀ e ∈ (endlessMove.exchanges openField).take 2, ¬ e.FailsInMotion := by
      have hlook : (openField.call .look).1 = .ok (some 5.0) := rfl
      have hplace : ((openField.call .look).2.call
        (.place (.ok 1.0) (.ok 2.0) (.ok 0.0))).1 = .ok none := rfl
      intro e he
      simp only [endlessMove, Program.exchanges, List.take_succ_cons, List.take_zero,
        List.mem_cons, List.not_mem_nil, or_false] at he
      rcases he with rfl | rfl
      · exact Session.not_failsInMotion_of_ok hlook
      · exact Session.not_failsInMotion_of_ok hplace
    obtain ⟨samples, hbuild, hlast, -⟩ :=
      ((live_pose_eq_playback h₀ endlessMove (List.take_prefix 2 _)).1 hok).1
    exact ⟨samples, hbuild, hlast⟩
  · apply (live_pose_eq_playback h₀ endlessMove (List.prefix_refl _)).2
    refine ⟨_, List.mem_cons_of_mem _ (List.mem_cons_of_mem _ List.mem_cons_self), ?_⟩
    exact .inl ⟨.drive ⟨0.25, 0.0, .infinity⟩, .tooLarge, rfl, rfl, rfl⟩

end PlanarDrive
