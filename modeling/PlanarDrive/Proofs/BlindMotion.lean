import PlanarDrive.Proofs.CallLimit

/-!
# Sensing does not disturb motion

A look at the sensor is counted and changes nothing else. Everything that moves the rover depends
on the poses, the step of time and the speeds alone, neither on the obstacles nor on the range of
the sensor. So two fixed sequences of calls that differ in their looks only, made in two worlds,
move the rover alike and leave the same history, as long as both stay within the limit of calls.
-/

namespace PlanarDrive

variable {α β γ : Type} [Scalar α]

namespace Session

/-- The two sessions have moved alike. They may differ in their obstacles and the range of their
sensors, and in how many calls were counted. -/
structure MovesAlike (s t : Session α) : Prop where
  start : t.setup.start = s.setup.start
  speeds : t.setup.speeds = s.setup.speeds
  dt : t.dt = s.dt
  live : t.live = s.live
  motions : t.motions = s.motions
  history : t.history = s.history

def AnswersAlike (r r' : Except (Fault α) β × Session α) : Prop :=
  r'.1 = r.1 ∧ r.2.MovesAlike r'.2

variable {s t : Session α}

theorem MovesAlike.pose (h : s.MovesAlike t) : t.pose = s.pose :=
  congrArg Sample.pose h.live

theorem MovesAlike.trajectory (h : s.MovesAlike t) : t.trajectory = s.trajectory := by
  unfold Session.trajectory
  rw [h.motions, h.start, h.dt]

theorem MovesAlike.tick_left (h : s.MovesAlike t) : s.tick.MovesAlike t :=
  ⟨h.start, h.speeds, h.dt, h.live, h.motions, h.history⟩

theorem MovesAlike.tick_right (h : s.MovesAlike t) : s.MovesAlike t.tick :=
  ⟨h.start, h.speeds, h.dt, h.live, h.motions, h.history⟩

theorem AnswersAlike.map {r r' : Except (Fault α) β × Session α} (h : AnswersAlike r r')
    (g : β → γ) : AnswersAlike (r.1.map g, r.2) (r'.1.map g, r'.2) :=
  ⟨congrArg (Except.map g) h.1, h.2⟩

theorem MovesAlike.answers (h : s.MovesAlike t) (r : Except (Fault α) β) :
    AnswersAlike (r, s) (r, t) :=
  ⟨rfl, h⟩

theorem MovesAlike.record (h : s.MovesAlike t) (label : String) (m : Option (Motion α)) :
    AnswersAlike (s.record label m) (t.record label m) := by
  cases m with
  | none =>
    refine ⟨rfl, h.start, h.speeds, h.dt, h.live, h.motions, ?_⟩
    show t.history ++ [⟨label, t.pose, t.pose⟩] = s.history ++ [⟨label, s.pose, s.pose⟩]
    rw [h.history, h.pose]
  | some m =>
    have hperform : m.perform t.dt t.live = m.perform s.dt s.live := by rw [h.dt, h.live]
    have hcarried : (s.carryOut m).2.MovesAlike (t.carryOut m).2 := by
      refine ⟨h.start, h.speeds, h.dt, ?_, ?_, h.history⟩
      · show (m.perform t.dt t.live).last t.live = (m.perform s.dt s.live).last s.live
        rw [hperform, h.live]
      · show t.motions ++ [m] = s.motions ++ [m]
        rw [h.motions]
    cases hfault : (m.perform s.dt s.live).fault with
    | none =>
      have hs : s.carryOut m = (.ok (), (s.carryOut m).2) := by simp [carryOut, hfault]
      have ht : t.carryOut m = (.ok (), (t.carryOut m).2) := by simp [carryOut, hperform, hfault]
      simp only [Session.record, carryOut?]
      rw [hs, ht]
      refine ⟨rfl, h.start, h.speeds, h.dt, hcarried.live, hcarried.motions, ?_⟩
      show (t.carryOut m).2.history ++ [⟨label, t.pose, (t.carryOut m).2.pose⟩] =
        (s.carryOut m).2.history ++ [⟨label, s.pose, (s.carryOut m).2.pose⟩]
      rw [hcarried.history, h.pose, hcarried.pose]
    | some f =>
      have hs : s.carryOut m = (.error f, (s.carryOut m).2) := by simp [carryOut, hfault]
      have ht : t.carryOut m = (.error f, (t.carryOut m).2) := by
        simp [carryOut, hperform, hfault]
      simp only [Session.record, carryOut?]
      rw [hs, ht]
      exact ⟨rfl, hcarried⟩

theorem MovesAlike.recordDrive (h : s.MovesAlike t) (label : String)
    (d : Except (Fault α) (Option (Drive α))) :
    AnswersAlike (s.recordDrive label d) (t.recordDrive label d) := by
  cases d with
  | ok d => exact h.record _ _
  | error f => exact h.answers _

theorem MovesAlike.steerBy (h : s.MovesAlike t) (op : Op) (arg : α) :
    AnswersAlike (s.steerBy op arg) (t.steerBy op arg) := by
  rw [s.steerBy_eq, t.steerBy_eq, h.speeds]
  exact h.recordDrive _ _

section Counted

variable (h : s.MovesAlike t) (hs : (s.calls + 1 : Nat) ≤ s.setup.maxCalls)
  (ht : (t.calls + 1 : Nat) ≤ t.setup.maxCalls)
include h hs ht

theorem MovesAlike.steer (op : Op) (arg : Argument α) :
    AnswersAlike (s.steer op arg) (t.steer op arg) := by
  unfold Session.steer
  rw [counted_of_le hs, counted_of_le ht]
  cases arg with
  | ok a => exact h.tick_left.tick_right.steerBy op a
  | error f => exact h.tick_left.tick_right.answers _

theorem MovesAlike.place (x y heading : Argument α) :
    AnswersAlike (s.place x y heading) (t.place x y heading) := by
  unfold Session.place
  rw [counted_of_le hs, counted_of_le ht]
  have htick := h.tick_left.tick_right
  cases x with
  | error f => exact htick.answers _
  | ok x =>
    cases y with
    | error f => exact htick.answers _
    | ok y =>
      cases heading with
      | error f => exact htick.answers _
      | ok a => exact htick.record _ _

theorem MovesAlike.obey (c : Command α) : AnswersAlike (s.obey c) (t.obey c) := by
  rw [obey_of_le hs, obey_of_le ht, h.speeds]
  exact h.tick_left.tick_right.recordDrive _ _

end Counted

/-- Calls are only ever counted up. -/
theorem calls_le_obeyAll (s : Session α) (commands : List (Command α)) :
    s.calls ≤ (s.obeyAll commands).2.calls :=
  obeyAll_keeps (P := fun u => s.calls ≤ u.calls)
    (fun he hle => Nat.le_trans hle (he.calls_eq ▸ Nat.le_succ _)) (Nat.le_refl _) commands

theorem calls_lt_obeyAll_cons (s : Session α) (c : Command α) (rest : List (Command α)) :
    s.calls < (s.obeyAll (c :: rest)).2.calls := by
  have hcalls := (s.effect_obey c).calls_eq
  rcases hr : s.obey c with ⟨_ | _, u⟩ <;> simp only [hr] at hcalls <;> simp only [obeyAll, hr]
  · omega
  · have hle := u.calls_le_obeyAll rest
    omega

theorem MovesAlike.obeyAll (h : s.MovesAlike t) (commands : List (Command α))
    (hs : (s.obeyAll commands).2.calls ≤ s.setup.maxCalls)
    (ht : (t.obeyAll commands).2.calls ≤ t.setup.maxCalls) :
    AnswersAlike (s.obeyAll commands) (t.obeyAll commands) := by
  induction commands generalizing s t with
  | nil => exact h.answers _
  | cons c rest ih =>
    have hlt := s.calls_lt_obeyAll_cons c rest
    have hlt' := t.calls_lt_obeyAll_cons c rest
    have hone := h.obey (by omega) (by omega) c
    have hsetup := (s.effect_obey c).extends.setup
    have hsetup' := (t.effect_obey c).extends.setup
    rcases hr : s.obey c with ⟨r, u⟩
    rcases hr' : t.obey c with ⟨r', u'⟩
    rw [hr] at hone hsetup
    rw [hr'] at hone hsetup'
    obtain ⟨rfl, hu⟩ := hone
    cases r' with
    | error f =>
      simp only [Session.obeyAll, hr, hr']
      exact hu.answers _
    | ok =>
      simp only [Session.obeyAll, hr, hr'] at hs ht ⊢
      rw [← hsetup] at hs
      rw [← hsetup'] at ht
      exact ih hu hs ht

end Session

def Act.isLook : Act α → Bool
  | .call .look => true
  | _ => false

/-- Asks for one thing after the other, whatever is answered. -/
def Program.listed : List (Act α) → Program α
  | [] => .stop (.ok ())
  | a :: rest => .act a fun _ => listed rest

namespace Session

variable {s t : Session α}

def after (s : Session α) (acts : List (Act α)) : Session α :=
  ((Program.listed acts).exec s).2

theorem after_cons (s : Session α) (a : Act α) (rest : List (Act α)) :
    s.after (a :: rest) = (s.act a).2.after rest :=
  rfl

theorem after_append (s : Session α) (xs ys : List (Act α)) :
    s.after (xs ++ ys) = (s.after xs).after ys := by
  induction xs generalizing s with
  | nil => rfl
  | cons a xs ih => exact ih _

theorem setup_after (s : Session α) (acts : List (Act α)) : (s.after acts).setup = s.setup := by
  have hreached := (Program.listed acts).reached_exchanges s
  have hext := (s.chained_exchanges (Program.listed acts)).extends
  rw [hreached] at hext
  exact hext.setup

theorem calls_le_after (s : Session α) (acts : List (Act α)) :
    s.calls ≤ (s.after acts).calls := by
  have hreached := (Program.listed acts).reached_calls s
  have hcalls := ((Program.listed acts).calls_calls s).calls_eq
  rw [hreached] at hcalls
  exact hcalls ▸ Nat.le_add_right _ _

theorem act_of_isLook (s : Session α) {a : Act α} (ha : a.isLook = true) :
    (s.act a).2 = s.tick := by
  unfold Act.isLook at ha
  split at ha
  · exact s.look_snd
  · cases ha

theorem MovesAlike.act (h : s.MovesAlike t) {a : Act α} (ha : a.isLook = false)
    (hs : (s.act a).2.calls ≤ s.setup.maxCalls) (ht : (t.act a).2.calls ≤ t.setup.maxCalls) :
    AnswersAlike (s.act a) (t.act a) := by
  cases a with
  | plan commands => exact (h.obeyAll commands hs ht).map _
  | call c =>
    replace hs := (s.effect_call c).calls_eq ▸ hs
    replace ht := (t.effect_call c).calls_eq ▸ ht
    cases c with
    | look => cases ha
    | steer op arg => exact (h.steer hs ht op arg).map _
    | place x y heading => exact (h.place hs ht x y heading).map _

/-- Looks on one side only leave the rover where it is. -/
theorem MovesAlike.looks (h : s.MovesAlike t) {looks : List (Act α)}
    (hlooks : ∀ a ∈ looks, a.isLook = true) : s.MovesAlike (t.after looks) := by
  induction looks generalizing t with
  | nil => exact h
  | cons a looks ih =>
    rw [List.forall_mem_cons] at hlooks
    rw [after_cons, t.act_of_isLook hlooks.1]
    exact ih h.tick_right hlooks.2

/-- Lists that differ in their looks only move the rover alike, within the limit of calls. -/
theorem MovesAlike.after (h : s.MovesAlike t) {xs ys : List (Act α)}
    (hsame : xs.filter (!·.isLook) = ys.filter (!·.isLook))
    (hs : (s.after xs).calls ≤ s.setup.maxCalls) (ht : (t.after ys).calls ≤ t.setup.maxCalls) :
    (s.after xs).MovesAlike (t.after ys) := by
  induction xs generalizing s t ys with
  | nil =>
    have hlooks := List.filter_eq_nil_iff.1 hsame.symm
    exact h.looks fun a ha => by simpa using hlooks a ha
  | cons a xs ih =>
    rw [after_cons] at hs ⊢
    cases ha : a.isLook with
    | true =>
      rw [s.act_of_isLook ha] at hs ⊢
      rw [List.filter_cons_of_neg (by simp [ha])] at hsame
      exact ih h.tick_left hsame hs ht
    | false =>
      rw [List.filter_cons_of_pos (by simp [ha])] at hsame
      obtain ⟨looks, zs, rfl, hlooks, -, hrest⟩ := List.filter_eq_cons_iff.1 hsame.symm
      -- the looks before `a` on the other side first, then `a` on both sides
      have hthen := h.looks fun b hb => by simpa using hlooks b hb
      rw [after_append, after_cons] at ht ⊢
      rw [← t.setup_after looks] at ht
      have hsetup := s.setup_after [a]
      have hsetup' := (t.after looks).setup_after [a]
      have hle := (s.act a).2.calls_le_after xs
      have hle' := ((t.after looks).act a).2.calls_le_after zs
      have hboth := (hthen.act ha (by omega) (by omega)).2
      rw [← hsetup] at hs
      rw [← hsetup'] at ht
      exact ih hboth hrest.symm hs ht

end Session

/-- Two lists of calls that differ in their looks only, made on fresh sessions that differ in their
obstacles and the range of their sensors only, record the same motions, write the same history and
leave the same live pose, time and trajectory, provided that neither makes more calls than allowed.
A look, answered or refused, is counted and changes nothing else. -/
theorem sensing_leaves_motion {setup : Setup α} {s₀ : Session α}
    (h₀ : Session.start setup = .ok s₀) (obstacles : List (Obstacle α)) (range : α)
    {xs ys : List (Act α)} (hsame : xs.filter (!·.isLook) = ys.filter (!·.isLook)) :
    (∃ t₀, Session.start { setup with obstacles := obstacles, range := range } = .ok t₀ ∧
      ((s₀.after xs).calls ≤ setup.maxCalls → (t₀.after ys).calls ≤ setup.maxCalls →
        (t₀.after ys).motions = (s₀.after xs).motions ∧
        (t₀.after ys).history = (s₀.after xs).history ∧
        (t₀.after ys).live = (s₀.after xs).live ∧
        (t₀.after ys).trajectory = (s₀.after xs).trajectory)) ∧
      ∀ s : Session α, s.look.2 = { s with calls := s.calls + 1 } := by
  obtain ⟨hdt, hfresh⟩ := Session.start_eq_ok h₀
  have hsetup := (Session.inStep_start h₀).2
  have halike : s₀.MovesAlike
      { s₀ with setup := { setup with obstacles := obstacles, range := range } } := by
    refine ⟨?_, ?_, rfl, rfl, rfl, rfl⟩ <;> rw [hsetup]
  refine ⟨⟨{ s₀ with setup := { setup with obstacles := obstacles, range := range } }, ?_,
    fun hs ht => ?_⟩, Session.look_snd⟩
  · rw [hfresh]
    simp only [Session.start, hdt, Except.map]
  · have hafter := halike.after hsame (hsetup.symm ▸ hs) ht
    exact ⟨hafter.motions, hafter.history, hafter.live, hafter.trajectory⟩

/-- Is put elsewhere, turns right, asks for a move by what is no number, and goes ahead. -/
def blindWalk : List (Act Binary64) :=
  [.call (.place (.ok 1.0) (.ok 2.0) (.ok 0.0)), .plan [⟨"turn_right", 1.0⟩, ⟨"hop", 1.0⟩],
    .call (.steer .moveForward Value.null.toFloat), .call (.steer .moveForward (.ok 0.01))]

/-- The same walk with a look before it, one after it and two on the way. -/
def watchfulWalk : List (Act Binary64) :=
  [.call .look, .call (.place (.ok 1.0) (.ok 2.0) (.ok 0.0)), .call .look,
    .plan [⟨"turn_right", 1.0⟩, ⟨"hop", 1.0⟩], .call (.steer .moveForward Value.null.toFloat),
    .call .look, .call (.steer .moveForward (.ok 0.01)), .call .look]

theorem sensing_leaves_motion_blindWalk :
    Session.start openField.setup = .ok openField ∧
      blindWalk.filter (!·.isLook) = watchfulWalk.filter (!·.isLook) ∧
      ∃ t₀ : Session Binary64,
        Session.start { openField.setup with obstacles := [.missing], range := 1.0 } = .ok t₀ ∧
        t₀.look.1 = .error .unsupportedObstacle ∧ (t₀.after watchfulWalk).motions.length = 3 ∧
        (t₀.after watchfulWalk).motions = (openField.after blindWalk).motions ∧
        (t₀.after watchfulWalk).history = (openField.after blindWalk).history ∧
        (t₀.after watchfulWalk).live = (openField.after blindWalk).live ∧
        (t₀.after watchfulWalk).trajectory = (openField.after blindWalk).trajectory := by
  have h₀ : Session.start openField.setup = .ok openField := rfl
  have hsame : blindWalk.filter (!·.isLook) = watchfulWalk.filter (!·.isLook) := rfl
  obtain ⟨t₀, ht₀, halike⟩ := (sensing_leaves_motion h₀ [.missing] 1.0 hsame).1
  refine ⟨h₀, hsame, t₀, ht₀, ?_⟩
  cases ht₀
  refine ⟨rfl, by decide +kernel, halike (by decide +kernel) (by decide +kernel)⟩

end PlanarDrive
