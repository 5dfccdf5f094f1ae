import PlanarDrive.Proofs.SingleCalls
import PlanarDrive.Value

/-!
# The limit of calls

The counter of a session goes up by one with every call that reaches it, whatever becomes of the
call. So the limit refuses exactly the calls after the first `maxCalls`, and does nothing but refuse
them, however often a script goes on after a refusal. Nothing else in a session refuses with the
fault of the limit. What a run can have moved and read is bounded by the same number.
-/

namespace PlanarDrive

variable {α β γ : Type} [Scalar α]

/-- If this is refused, it is not for the number of calls. -/
def NotLimited (r : Except (Fault α) β) : Prop :=
  ∀ n, r ≠ .error (.callLimit n)

omit [Scalar α] in
@[simp] theorem notLimited_ok (b : β) : NotLimited (.ok b : Except (Fault α) β) := by
  simp [NotLimited]

omit [Scalar α] in
/-- The fault alone decides, whatever was asked for. -/
theorem NotLimited.error {f : Fault α} (h : NotLimited (.error f : Except (Fault α) β)) :
    NotLimited (.error f : Except (Fault α) γ) := by
  intro n hn
  cases hn
  exact h n rfl

omit [Scalar α] in
theorem NotLimited.map {r : Except (Fault α) β} (h : NotLimited r) (g : β → γ) :
    NotLimited (r.map g) := by
  cases r with
  | ok b => exact notLimited_ok _
  | error f => exact h.error

omit [Scalar α] in
theorem NotLimited.bind {r : Except (Fault α) β} {g : β → Except (Fault α) γ}
    (h : NotLimited r) (hg : ∀ b, NotLimited (g b)) : NotLimited (r >>= g) := by
  cases r with
  | ok b => exact hg b
  | error f => exact h.error

namespace Scalar

theorem notLimited_divide (a b : α) : NotLimited (divide a b) := by
  unfold divide
  split <;> simp [NotLimited]

theorem notLimited_squareRoot (x : α) : NotLimited (squareRoot x) := by
  unfold squareRoot
  split <;> simp [NotLimited]

theorem notLimited_nearest (x : α) : NotLimited (nearest x) := by
  unfold nearest
  split
  · simp [NotLimited]
  · split <;> simp [NotLimited]

theorem notLimited_direction (angle : α) : NotLimited (direction angle) := by
  unfold direction
  split <;> simp [NotLimited]

end Scalar

namespace Ray

theorem notLimited_betweenSides (start step low high : α) (span : Span α) :
    NotLimited (betweenSides start step low high span) := by
  unfold betweenSides
  split
  · exact notLimited_ok _
  · exact (Scalar.notLimited_divide _ _).bind fun s =>
      (Scalar.notLimited_divide _ _).bind fun t => notLimited_ok _

theorem notLimited_hitBox (ray : Ray α) (box : Box α) : NotLimited (ray.hitBox box) := by
  unfold hitBox
  refine (notLimited_betweenSides _ _ _ _ _).bind fun first => ?_
  cases first with
  | none => exact notLimited_ok _
  | some span =>
    refine (notLimited_betweenSides _ _ _ _ _).bind fun second => ?_
    cases second with
    | none => exact notLimited_ok _
    | some span => exact notLimited_ok _

theorem notLimited_hitCircle (ray : Ray α) (x y radius : α) :
    NotLimited (ray.hitCircle x y radius) := by
  unfold hitCircle
  dsimp only
  split
  · exact notLimited_ok _
  · exact (Scalar.notLimited_squareRoot _).bind fun half => notLimited_ok _

theorem notLimited_hit (ray : Ray α) (o : Obstacle α) : NotLimited (ray.hit o) := by
  cases o with
  | circle x y radius => exact ray.notLimited_hitCircle x y radius
  | rectangle x y width height => exact ray.notLimited_hitBox _
  | missing => simp [hit, NotLimited]

end Ray

namespace Sensor

theorem notLimited_nearestHit (ray : Ray α) (obstacles : List (Obstacle α)) (distance : α) :
    NotLimited (nearestHit ray obstacles distance) := by
  induction obstacles generalizing distance with
  | nil => exact notLimited_ok _
  | cons o rest ih => exact (ray.notLimited_hit o).bind fun t => ih _

theorem notLimited_front (obstacles : List (Obstacle α)) (pose : Pose α) (range : α) :
    NotLimited (front obstacles pose range) := by
  unfold front beam
  split
  · simp [NotLimited]
  · exact (Scalar.notLimited_direction _).bind fun d =>
      (notLimited_nearestHit _ _ _).bind fun distance => notLimited_ok _

end Sensor

theorem Command.notLimited_drive (c : Command α) (speeds : Speeds α) :
    NotLimited (c.drive speeds) := by
  intro n h
  cases hop : Op.ofName? c.op with
  | none =>
    rw [drive_of_unknown hop] at h
    cases h
  | some op =>
    rw [← Op.command_of_ofName? hop] at h
    obtain ⟨-, -, hf⟩ := Op.drive_command_eq_error_iff.1 h
    cases hf

theorem Sample.fault_advanceTimes_ne (v w dt : α) (n : Nat) (s : Sample α) (limit : Int) :
    (advanceTimes v w dt n [] s).fault ≠ some (.callLimit limit) := by
  induction n generalizing s with
  | zero => simp [Trace.empty]
  | succ n ih =>
    rw [advanceTimes_succ]
    cases h : s.advance v w dt with
    | ok t => exact ih t
    | error f =>
      have hf : NotLimited (s.advance v w dt) := (Scalar.notLimited_direction _).map _
      rw [h] at hf
      rintro ⟨⟩
      exact hf limit rfl

theorem Motion.fault_perform_ne (m : Motion α) (dt : TimeStep α) (s : Sample α) (limit : Int) :
    (m.perform dt s).fault ≠ some (.callLimit limit) := by
  cases m with
  | teleport p => simp [perform]
  | drive d =>
    show (d.perform dt s).fault ≠ _
    unfold Drive.perform
    split
    · cases h : d.stepCount dt with
      | ok n => exact Sample.fault_advanceTimes_ne _ _ _ _ s limit
      | error f =>
        have hf : NotLimited (d.stepCount dt) := (Scalar.notLimited_nearest _).map _
        rw [h] at hf
        rintro ⟨⟩
        exact hf limit rfl
    · simp [Trace.empty]

/-- The numbers that a call is given, or what was given in their place. -/
def Call.arguments : Call α → List (Argument α)
  | .steer _ arg => [arg]
  | .look => []
  | .place x y heading => [x, y, heading]

def Act.arguments : Act α → List (Argument α)
  | .call c => c.arguments
  | .plan _ => []

/-- No value that is given in place of a number brings the fault of the limit. -/
theorem Value.notLimited_toFloat (v : Value) : NotLimited v.toFloat := by
  cases v with
  | float x => exact notLimited_ok x
  | bool b => exact notLimited_ok _
  | int n =>
    simp only [toFloat]
    split
    · simp [NotLimited]
    · exact notLimited_ok _
  | text s =>
    simp only [toFloat]
    cases Decimal.readFloat s.toList with
    | none => simp [NotLimited]
    | some x => exact notLimited_ok x
  | _ => simp [toFloat, NotLimited]

namespace Session

variable (s : Session α)

theorem notLimited_record (label : String) (m : Option (Motion α)) :
    NotLimited (s.record label m).1 := by
  unfold record
  cases m with
  | none => exact notLimited_ok _
  | some m =>
    simp only [carryOut?, carryOut]
    cases hm : (m.perform s.dt s.live).fault with
    | none => exact notLimited_ok _
    | some f =>
      intro limit h
      cases h
      exact m.fault_perform_ne s.dt s.live limit hm

theorem notLimited_recordDrive (label : String) (c : Command α) (speeds : Speeds α) :
    NotLimited (s.recordDrive label (c.drive speeds)).1 := by
  have hdrive := c.notLimited_drive speeds
  cases hd : c.drive speeds with
  | ok d => exact s.notLimited_record _ _
  | error f =>
    rw [hd] at hdrive
    exact hdrive.error

variable {s}

theorem mem_arguments_of_call {c : Call α} (hle : (s.calls + 1 : Nat) ≤ s.setup.maxCalls)
    {limit : Int} (h : (s.call c).1 = .error (.callLimit limit)) :
    .error (.callLimit limit) ∈ c.arguments := by
  cases c with
  | look =>
    rcases s.look_eq with ⟨hl, -⟩ | ⟨-, hlt⟩
    · have hfront := (Sensor.notLimited_front s.setup.obstacles s.pose s.setup.range).map some
      simp only [call, hl] at h
      exact absurd h (hfront limit)
    · omega
  | steer op arg =>
    simp only [call, steer, counted_of_le hle] at h
    cases arg with
    | ok a =>
      dsimp only at h
      rw [steerBy_eq] at h
      exact absurd h ((s.tick.notLimited_recordDrive _ _ _).map _ limit)
    | error f =>
      cases h
      exact List.mem_singleton_self _
  | place x y heading =>
    simp only [call, place, counted_of_le hle] at h
    cases x with
    | error f => cases h; simp [Call.arguments]
    | ok x =>
      cases y with
      | error f => cases h; simp [Call.arguments]
      | ok y =>
        cases heading with
        | error f => cases h; simp [Call.arguments]
        | ok a => exact absurd h ((s.tick.notLimited_record _ _).map _ limit)

theorem notLimited_obey (c : Command α) (hle : (s.calls + 1 : Nat) ≤ s.setup.maxCalls) :
    NotLimited (s.obey c).1 := by
  rw [obey_of_le hle]
  exact s.tick.notLimited_recordDrive _ c _

/-- Within the limit a single call is refused with the fault of the limit only when it was given
this fault in place of a number. -/
theorem mem_arguments_of_act {a : Act α} (ha : a.IsSingle)
    (hle : (s.calls + 1 : Nat) ≤ s.setup.maxCalls) {limit : Int}
    (h : (s.act a).1 = .error (.callLimit limit)) : .error (.callLimit limit) ∈ a.arguments := by
  cases ha with
  | call c => exact mem_arguments_of_call hle h
  | command c =>
    rw [act_plan_singleton] at h
    exact absurd h ((notLimited_obey c hle).map _ limit)

theorem Effect.of_lt {r : Except (Fault α) β × Session α} (h : s.Effect r)
    (hlt : s.setup.maxCalls < (s.calls + 1 : Nat)) :
    r = (.error (.callLimit s.setup.maxCalls), s.tick) := by
  cases h with
  | limited h => rfl
  | _ => omega

theorem Effect.calls_eq {r : Except (Fault α) β × Session α} (h : s.Effect r) :
    r.2.calls = s.calls + 1 := by
  cases h <;> rfl

theorem Effect.length_history_le {r : Except (Fault α) β × Session α} (h : s.Effect r) :
    r.2.history.length ≤ s.history.length + 1 := by
  cases h with
  | noted h b label => exact Nat.le_of_eq List.length_append
  | moved h b label m hm => exact Nat.le_of_eq List.length_append
  | _ => exact Nat.le_succ _

end Session

def Exchange.isReading (e : Exchange α) : Bool :=
  match e.act, e.answer with
  | .call .look, .ok _ => true
  | _, _ => false

namespace Exchange.IsCall

variable {e : Exchange α} (h : e.IsCall)
include h

theorem refused_of_lt (hlt : e.before.setup.maxCalls < (e.before.calls + 1 : Nat)) :
    e.answer = .error (.callLimit e.before.setup.maxCalls) ∧ e.after = e.before.tick :=
  Prod.mk.inj (h.effect.of_lt hlt)

/-- A call enters itself into the history or reads the sensor, or does neither. -/
theorem history_add_reading_le :
    e.after.history.length + e.isReading.toNat ≤ e.before.history.length + 1 := by
  obtain ⟨s, a, r, t⟩ := e
  have hlength := h.effect.length_history_le
  by_cases hlook : a = .call .look
  · subst hlook
    have hafter : t = s.tick := h.after_eq.trans s.look_snd
    subst hafter
    exact Nat.add_le_add_left (Bool.toNat_le _) _
  · have hnot : isReading ⟨s, a, r, t⟩ = false := by
      unfold isReading
      split
      · next ha _ => exact absurd ha hlook
      · rfl
    rw [hnot]
    exact hlength

theorem history_add_reading_of_lt
    (hlt : e.before.setup.maxCalls < (e.before.calls + 1 : Nat)) :
    e.after.history.length + e.isReading.toNat = e.before.history.length := by
  obtain ⟨hanswer, hafter⟩ := h.refused_of_lt hlt
  have hnot : e.isReading = false := by simp [isReading, hanswer]
  rw [hafter, hnot]
  rfl

end Exchange.IsCall

namespace Session

variable {s : Session α}

theorem Calls.setup_eq {es : List (Exchange α)} (h : s.Calls es) :
    (s.reached es).setup = s.setup :=
  h.chained.extends.setup

/-- Every call is counted, whatever becomes of it. -/
theorem Calls.calls_eq {es : List (Exchange α)} (h : s.Calls es) :
    (s.reached es).calls = s.calls + es.length := by
  refine h.rule (P := fun es => (s.reached es).calls = s.calls + es.length) rfl ?_
  intro xs e hxs hbefore he ih
  rw [reached_concat, he.effect.calls_eq, hbefore, ih, List.length_append, List.length_singleton,
    Nat.add_assoc]

theorem Calls.history_add_readings_le {es : List (Exchange α)} (h : s.Calls es)
    (hcalls : s.calls = 0) (hhistory : s.history = []) (hmax : 0 ≤ s.setup.maxCalls) :
    ((s.reached es).history.length + es.countP Exchange.isReading : Nat) ≤ s.setup.maxCalls ∧
      (s.reached es).history.length + es.countP Exchange.isReading ≤ es.length := by
  refine h.rule (P := fun es =>
    ((s.reached es).history.length + es.countP Exchange.isReading : Nat) ≤ s.setup.maxCalls ∧
      (s.reached es).history.length + es.countP Exchange.isReading ≤ es.length) ?_ ?_
  · simp [hhistory, hmax]
  · intro xs e hxs hbefore he ⟨hmax, hlength⟩
    have hcount : (xs ++ [e]).countP Exchange.isReading =
        xs.countP Exchange.isReading + e.isReading.toNat := by
      rw [List.countP_append, List.countP_singleton]
      cases e.isReading <;> rfl
    have hcalls' := hxs.calls_eq
    have hsetup := hxs.setup_eq
    rw [← hbefore] at hmax hlength hcalls' hsetup
    rw [reached_concat, hcount, List.length_append, List.length_singleton]
    by_cases hle : (e.before.calls + 1 : Nat) ≤ e.before.setup.maxCalls
    · have hone := he.history_add_reading_le
      rw [hsetup] at hle
      omega
    · have hnone := he.history_add_reading_of_lt (Int.not_le.1 hle)
      omega

end Session

/-- Along every run the counter is the number of calls that have reached the session. None of the
first `maxCalls` is refused for the number of calls, unless it was given this very fault in place
of a number. Every later one is, and changes nothing but the counter. So the moves that have
entered the history and the readings of the sensor together are at most `maxCalls`. -/
theorem limit_refuses_exactly_later_calls {setup : Setup α} {s₀ : Session α}
    (h₀ : Session.start setup = .ok s₀) (hmax : 0 ≤ setup.maxCalls) (p : Program α)
    {past : List (Exchange α)} (hp : past <+: p.calls s₀) :
    (s₀.reached past).calls = past.length ∧
      (∀ (i : Nat) e, past[i]? = some e →
        ((i : Int) < setup.maxCalls → ∀ limit, e.answer = .error (.callLimit limit) →
          .error (.callLimit limit) ∈ e.act.arguments) ∧
        (setup.maxCalls ≤ i →
          e.answer = .error (.callLimit setup.maxCalls) ∧ e.after = e.before.tick)) ∧
      ((s₀.reached past).history.length + past.countP Exchange.isReading : Nat) ≤
        setup.maxCalls := by
  obtain ⟨hfresh, hsetup⟩ : s₀ = ⟨setup, s₀.dt, .initial setup.start, [], [], 0⟩ ∧
      s₀.setup = setup := ⟨(Session.start_eq_ok h₀).2, (Session.inStep_start h₀).2⟩
  have hcalls : s₀.calls = 0 := by rw [hfresh]
  have hhistory : s₀.history = [] := by rw [hfresh]
  subst hsetup
  have hpast := (p.calls_calls s₀).earlier hp
  refine ⟨by simpa [hcalls] using hpast.calls_eq, fun i e hi => ?_,
    (hpast.history_add_readings_le hcalls hhistory hmax).1⟩
  obtain ⟨hearlier, hcall, hbefore⟩ := hpast.of_getElem? hi
  have hcount : e.before.calls = i := by
    have hlt := (List.getElem?_eq_some_iff.1 hi).1
    rw [hbefore, hearlier.calls_eq, hcalls, List.length_take]
    omega
  have hset : e.before.setup = s₀.setup := hbefore ▸ hearlier.setup_eq
  rw [← hset]
  refine ⟨fun hlt limit hanswer => ?_, fun hle => hcall.refused_of_lt (by omega)⟩
  rw [hcall.answer_eq] at hanswer
  exact Session.mem_arguments_of_act hcall.single (by omega) hanswer

/-- A fresh session in an empty world that allows three calls. -/
def shortLeash : Session Binary64 :=
  { openField with setup := { openField.setup with maxCalls := 3 } }

/-- A script that goes on after every refusal: it looks, turns by what is no number, asks for an
endless move, is put elsewhere and looks again. -/
def stubborn : Program Binary64 :=
  .act (.call .look) fun _ =>
    .act (.call (.steer .turnLeft Value.null.toFloat)) fun _ =>
      .act (.plan [⟨"move_forward", .infinity⟩, ⟨"turn_left", 90.0⟩]) fun _ =>
        .act (.call (.place (.ok 1.0) (.ok 2.0) (.ok 0.0))) fun _ =>
          .act (.call .look) fun _ => .stop (.ok ())

theorem limit_refuses_exactly_later_calls_stubborn :
    Session.start shortLeash.setup = .ok shortLeash ∧ 0 ≤ shortLeash.setup.maxCalls ∧
      (stubborn.exec shortLeash).2.calls = 5 ∧
      (∀ e, (stubborn.calls shortLeash)[1]? = some e →
        ∀ limit, e.answer ≠ .error (.callLimit limit)) ∧
      (∀ e, (stubborn.calls shortLeash)[4]? = some e →
        e.answer = .error (.callLimit 3) ∧ e.after = e.before.tick) ∧
      ((stubborn.exec shortLeash).2.history.length +
        (stubborn.calls shortLeash).countP Exchange.isReading : Nat) ≤ (3 : Int) := by
  have h₀ : Session.start shortLeash.setup = .ok shortLeash := rfl
  have hmax : 0 ≤ shortLeash.setup.maxCalls := by decide
  obtain ⟨hcalls, heach, hbound⟩ :=
    limit_refuses_exactly_later_calls h₀ hmax stubborn (List.prefix_refl _)
  rw [stubborn.reached_calls] at hcalls hbound
  refine ⟨h₀, hmax, hcalls, fun e he limit hanswer => ?_,
    fun e he => (heach 4 e he).2 (by decide), hbound⟩
  have hgiven := (heach 1 e he).1 (by decide) limit hanswer
  cases he
  exact Value.null.notLimited_toFloat limit (List.mem_singleton.1 hgiven).symm

end PlanarDrive
