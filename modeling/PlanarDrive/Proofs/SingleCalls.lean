import Mathlib.Data.List.Induction
import PlanarDrive.Proofs.Playback

/-!
# Runs call by call

A plan is one exchange of a run, and as many calls as it has commands that are reached. Told call
by call, a run goes through the same sessions, and each of its exchanges is one counted call with
one of the six effects. So what every counted call keeps, a run keeps from its first call on.
-/

namespace PlanarDrive

variable {α : Type} [Scalar α]

/-- What is counted once: one of the five calls, or a single command of a plan. -/
inductive Act.IsSingle : Act α → Prop
  | call (c : Call α) : IsSingle (.call c)
  | command (c : Command α) : IsSingle (.plan [c])

structure Exchange.IsCall (e : Exchange α) : Prop where
  single : e.act.IsSingle
  eq_act : (e.answer, e.after) = e.before.act e.act

namespace Session

theorem act_plan_singleton (s : Session α) (c : Command α) :
    s.act (.plan [c]) = ((s.obey c).1.map fun _ => none, (s.obey c).2) := by
  rcases hr : s.obey c with ⟨_ | _, t⟩ <;> simp [act, obeyAll, hr, Except.map]

/-- Every single call has one of the six effects. -/
theorem effect_act (s : Session α) {a : Act α} (ha : a.IsSingle) : s.Effect (s.act a) := by
  cases ha with
  | call c => exact s.effect_call c
  | command c =>
    rw [act_plan_singleton]
    exact (s.effect_obey c).map _

theorem failsInMotion_map_iff {β γ : Type} {s : Session α} {r : Except (Fault α) β × Session α}
    (g : β → γ) : s.FailsInMotion (r.1.map g, r.2) ↔ s.FailsInMotion r := by
  rcases r with ⟨_ | _, t⟩ <;> simp [FailsInMotion, Except.map]

theorem actFailsInMotion_iff (s : Session α) {a : Act α} (ha : a.IsSingle) :
    s.ActFailsInMotion a ↔ s.FailsInMotion (s.act a) := by
  cases ha with
  | call c => rfl
  | command c =>
    rw [act_plan_singleton, failsInMotion_map_iff]
    simp [ActFailsInMotion, PlanFailsInMotion]

/-- The exchanges of a plan, one for each command that is reached. -/
def obeyEach (s : Session α) : List (Command α) → List (Exchange α)
  | [] => []
  | c :: rest =>
    ⟨s, .plan [c], (s.act (.plan [c])).1, (s.act (.plan [c])).2⟩ ::
      match s.obey c with
      | (.ok (), t) => t.obeyEach rest
      | (.error _, _) => []

theorem isCall_of_mem_obeyEach {s : Session α} {commands : List (Command α)} {e : Exchange α}
    (he : e ∈ s.obeyEach commands) : e.IsCall := by
  induction commands generalizing s with
  | nil => simp [obeyEach] at he
  | cons c rest ih =>
    rw [obeyEach, List.mem_cons] at he
    rcases he with rfl | he
    · exact ⟨.command c, rfl⟩
    · rcases hr : s.obey c with ⟨_ | _, t⟩
      · simp [hr] at he
      · rw [hr] at he
        exact ih he

theorem reached_obeyEach (s : Session α) (commands : List (Command α)) :
    s.reached (s.obeyEach commands) = (s.obeyAll commands).2 := by
  induction commands generalizing s with
  | nil => rfl
  | cons c rest ih =>
    rcases hr : s.obey c with ⟨_ | _, t⟩ <;>
      simp [obeyEach, obeyAll, act_plan_singleton, hr, ih]

theorem chained_obeyEach (s : Session α) (commands : List (Command α)) :
    s.Chained (s.obeyEach commands) := by
  induction commands generalizing s with
  | nil => trivial
  | cons c rest ih =>
    refine ⟨rfl, rfl, ?_⟩
    rcases hr : s.obey c with ⟨_ | _, t⟩
    · trivial
    · rw [act_plan_singleton, hr]
      exact ih t

end Session

def Exchange.calls (e : Exchange α) : List (Exchange α) :=
  match e.act with
  | .call _ => [e]
  | .plan commands => e.before.obeyEach commands

/-- The exchanges of a run, one for each call that reached the session. -/
def Program.calls (p : Program α) (s : Session α) : List (Exchange α) :=
  (p.exchanges s).flatMap Exchange.calls

namespace Session

structure Calls (s : Session α) (es : List (Exchange α)) : Prop where
  chained : s.Chained es
  isCall : ∀ e ∈ es, e.IsCall

theorem Calls.append {s : Session α} {xs ys : List (Exchange α)} (hx : s.Calls xs)
    (hy : (s.reached xs).Calls ys) : s.Calls (xs ++ ys) :=
  ⟨chained_append.2 ⟨hx.chained, hy.chained⟩, List.forall_mem_append.2 ⟨hx.isCall, hy.isCall⟩⟩

theorem Calls.left {s : Session α} {xs ys : List (Exchange α)} (h : s.Calls (xs ++ ys)) :
    s.Calls xs :=
  ⟨(chained_append.1 h.chained).1, fun e he => h.isCall e (List.mem_append_left _ he)⟩

theorem Calls.earlier {s : Session α} {xs ys : List (Exchange α)} (h : s.Calls ys)
    (hxs : xs <+: ys) : s.Calls xs := by
  obtain ⟨zs, rfl⟩ := hxs
  exact h.left

/-- The last call begins in the session that the calls before it have reached. -/
theorem Calls.before_eq {s : Session α} {xs ys : List (Exchange α)} {e : Exchange α}
    (h : s.Calls (xs ++ e :: ys)) : e.before = s.reached xs :=
  (chained_append.1 h.chained).2.1

theorem Calls.of_getElem? {s : Session α} {es : List (Exchange α)} (h : s.Calls es) {i : Nat}
    {e : Exchange α} (hi : es[i]? = some e) :
    s.Calls (es.take i) ∧ e.IsCall ∧ e.before = s.reached (es.take i) := by
  obtain ⟨hlt, rfl⟩ := List.getElem?_eq_some_iff.1 hi
  have hsplit := List.take_append_drop i es
  rw [List.drop_eq_getElem_cons hlt] at hsplit
  rw [← hsplit] at h
  exact ⟨h.left, h.isCall _ (by simp), h.before_eq⟩

/-- What holds at the start and is kept by every further call holds after all calls. -/
theorem Calls.rule {s : Session α} {P : List (Exchange α) → Prop} (start : P [])
    (step : ∀ xs e, s.Calls xs → e.before = s.reached xs → e.IsCall → P xs → P (xs ++ [e]))
    {es : List (Exchange α)} (h : s.Calls es) : P es := by
  induction es using List.reverseRecOn with
  | nil => exact start
  | append_singleton xs e ih =>
    exact step xs e h.left h.before_eq (h.isCall e (by simp)) (ih h.left)

theorem calls_and_reached_of_exchange {s : Session α} {e : Exchange α} (hb : e.before = s)
    (ha : (e.answer, e.after) = s.act e.act) :
    s.Calls e.calls ∧ s.reached e.calls = e.after := by
  subst hb
  unfold Exchange.calls
  split
  · next c hact =>
    refine ⟨⟨⟨rfl, ha, trivial⟩, ?_⟩, rfl⟩
    rw [List.forall_mem_singleton]
    exact ⟨hact ▸ .call c, ha⟩
  · next commands hact =>
    refine ⟨⟨e.before.chained_obeyEach commands, fun _ => isCall_of_mem_obeyEach⟩, ?_⟩
    rw [hact] at ha
    exact (e.before.reached_obeyEach commands).trans (congrArg Prod.snd ha).symm

theorem Chained.calls_flatMap {s : Session α} {es : List (Exchange α)} (h : s.Chained es) :
    s.Calls (es.flatMap Exchange.calls) ∧
      s.reached (es.flatMap Exchange.calls) = s.reached es := by
  induction es generalizing s with
  | nil => exact ⟨⟨trivial, by simp⟩, rfl⟩
  | cons e es ih =>
    obtain ⟨rfl, ha, hrest⟩ := h
    obtain ⟨hcalls, hreached⟩ := calls_and_reached_of_exchange rfl ha
    obtain ⟨hcalls', hreached'⟩ := ih hrest
    rw [← hreached] at hcalls'
    refine ⟨hcalls.append hcalls', ?_⟩
    rw [List.flatMap_cons, reached_append, hreached, hreached', reached_cons]

end Session

namespace Program

theorem calls_calls (p : Program α) (s : Session α) : s.Calls (p.calls s) :=
  (s.chained_exchanges p).calls_flatMap.1

/-- Told call by call, a run ends in the same session. -/
theorem reached_calls (p : Program α) (s : Session α) :
    s.reached (p.calls s) = (p.exec s).2 :=
  (s.chained_exchanges p).calls_flatMap.2.trans (p.reached_exchanges s)

end Program

namespace Exchange

variable {e : Exchange α}

theorem IsCall.answer_eq (h : e.IsCall) : e.answer = (e.before.act e.act).1 :=
  congrArg Prod.fst h.eq_act

theorem IsCall.after_eq (h : e.IsCall) : e.after = (e.before.act e.act).2 :=
  congrArg Prod.snd h.eq_act

theorem IsCall.effect (h : e.IsCall) : e.before.Effect (e.answer, e.after) :=
  h.eq_act ▸ e.before.effect_act h.single

theorem IsCall.failsInMotion_iff (h : e.IsCall) :
    e.FailsInMotion ↔ e.before.FailsInMotion (e.answer, e.after) :=
  h.eq_act ▸ e.before.actFailsInMotion_iff h.single

end Exchange

end PlanarDrive
