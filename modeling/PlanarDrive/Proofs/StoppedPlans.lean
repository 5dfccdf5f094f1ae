import PlanarDrive.Proofs.PlanAsCalls
import PlanarDrive.Proofs.RefusedCalls

/-!
# Plans that stop

A plan may be cut anywhere: its second part is carried out in the session that the first part has
left, unless that was refused. A command is declined before it moves the rover for one of three
reasons: the limit of calls, an operation that is not known, or a speed of zero where there is
something to do. Then the plan stops, the command has only been counted, and what stands behind it
is never looked at. The only other end of a plan is a motion that fails on the way.
-/

namespace PlanarDrive

variable {α : Type} [Scalar α]

namespace Session

/-- The session declines a command before it moves the rover. -/
inductive Declines (s : Session α) (c : Command α) : Fault α → Prop
  | limit (h : s.setup.maxCalls < (s.calls + 1 : Nat)) :
      Declines s c (.callLimit s.setup.maxCalls)
  | unknown (h : (s.calls + 1 : Nat) ≤ s.setup.maxCalls) (hop : Op.ofName? c.op = none) :
      Declines s c (.unknownCommand c.op)
  | noSpeed (h : (s.calls + 1 : Nat) ≤ s.setup.maxCalls) {op : Op}
      (hop : Op.ofName? c.op = some op) (harg : (op.amount c.arg == 0.0) = false)
      (hspeed : (op.speed s.setup.speeds == 0.0) = true) :
      Declines s c .divisionByZero

variable {s t : Session α} {c : Command α} {f : Fault α}

theorem Declines.obey_eq (h : s.Declines c f) : s.obey c = (.error f, s.tick) := by
  cases h with
  | limit h => exact obey_of_lt h
  | unknown h hop => exact obey_of_unknown h hop
  | noSpeed h hop harg hspeed =>
    have hdrive := Op.drive_command_eq_error_iff.2 ⟨harg, hspeed, rfl⟩
    rw [Op.command_of_ofName? hop] at hdrive
    rw [obey_of_le h, hdrive]
    rfl

theorem failsInMotion_of_record {label : String} {m : Option (Motion α)}
    (h : s.tick.record label m = (.error f, t)) : s.FailsInMotion (s.tick.record label m) := by
  cases m with
  | none => cases h
  | some m =>
    cases hm : (m.perform s.dt s.live).fault with
    | none =>
      rw [s.record_of_performs hm] at h
      cases h
    | some g =>
      rw [s.record_of_fails hm]
      exact failsInMotion_carried hm

/-- A command that is refused is declined, or fails in its motion. -/
theorem declines_or_failsInMotion (h : s.obey c = (.error f, t)) :
    s.Declines c f ∧ t = s.tick ∨ s.FailsInMotion (s.obey c) := by
  by_cases hle : (s.calls + 1 : Nat) ≤ s.setup.maxCalls
  · cases hop : Op.ofName? c.op with
    | none =>
      rw [obey_of_unknown hle hop] at h
      cases h
      exact .inl ⟨.unknown hle hop, rfl⟩
    | some op =>
      rw [obey_of_le hle] at h ⊢
      cases hd : c.drive s.setup.speeds with
      | error g =>
        rw [hd] at h
        cases h
        rw [← Op.command_of_ofName? hop] at hd
        obtain ⟨harg, hspeed, rfl⟩ := Op.drive_command_eq_error_iff.1 hd
        exact .inl ⟨.noSpeed hle hop harg hspeed, rfl⟩
      | ok d =>
        rw [hd] at h
        exact .inr (failsInMotion_of_record h)
  · rw [obey_of_lt (Int.not_le.1 hle)] at h
    cases h
    exact .inl ⟨.limit (Int.not_le.1 hle), rfl⟩

theorem obeyAll_append_of_ok {a : List (Command α)} (h : s.obeyAll a = (.ok (), t))
    (b : List (Command α)) : s.obeyAll (a ++ b) = t.obeyAll b := by
  induction a generalizing s with
  | nil =>
    cases h
    rfl
  | cons c rest ih =>
    rcases hr : s.obey c with ⟨g | _, u⟩
    · simp [obeyAll, hr] at h
    · simp only [obeyAll, hr] at h
      simp only [List.cons_append, obeyAll, hr, ih h]

theorem obeyAll_append_of_error {a : List (Command α)} (h : s.obeyAll a = (.error f, t))
    (b : List (Command α)) : s.obeyAll (a ++ b) = (.error f, t) := by
  induction a generalizing s with
  | nil => cases h
  | cons c rest ih =>
    rcases hr : s.obey c with ⟨g | _, u⟩
    · simp only [obeyAll, hr] at h
      simp only [List.cons_append, obeyAll, hr, h]
    · simp only [obeyAll, hr] at h
      simp only [List.cons_append, obeyAll, hr, ih h]

theorem obeyAll_cons_of_error {rest : List (Command α)} (h : s.obey c = (.error f, t)) :
    s.obeyAll (c :: rest) = (.error f, t) := by
  simp only [obeyAll, h]

/-- A plan that is refused has a first command that is. -/
theorem exists_refused_of_obeyAll {commands : List (Command α)}
    (h : s.obeyAll commands = (.error f, t)) :
    ∃ earlier c later u, commands = earlier ++ c :: later ∧ s.obeyAll earlier = (.ok (), u) ∧
      u.obey c = (.error f, t) := by
  induction commands generalizing s with
  | nil => cases h
  | cons c rest ih =>
    rcases hr : s.obey c with ⟨g | _, u⟩
    · simp only [obeyAll, hr] at h
      exact ⟨[], c, rest, s, rfl, rfl, hr.trans h⟩
    · simp only [obeyAll, hr] at h
      obtain ⟨earlier, c', later, v, rfl, hearlier, hobey⟩ := ih h
      exact ⟨c :: earlier, c', later, v, rfl, by simp only [obeyAll, hr, hearlier], hobey⟩

end Session

/-- A plan may be cut anywhere: the rest of it goes on in the session that its beginning has left,
and is not looked at if the beginning was refused. The first command that is declined ends the plan
with its refusal, and is only counted, whatever stands behind it. Every refused plan ends like this,
or at a first command that fails in its motion. -/
theorem plan_splits_and_stops_at_first_refusal (s : Session α) :
    (∀ a b t, s.obeyAll a = (.ok (), t) → s.obeyAll (a ++ b) = t.obeyAll b) ∧
      (∀ a b f t, s.obeyAll a = (.error f, t) → s.obeyAll (a ++ b) = (.error f, t)) ∧
      (∀ earlier c later t f, s.obeyAll earlier = (.ok (), t) → t.Declines c f →
        s.obeyAll (earlier ++ c :: later) = (.error f, t.tick)) ∧
      ∀ commands f u, s.obeyAll commands = (.error f, u) →
        ∃ earlier c later t, commands = earlier ++ c :: later ∧ s.obeyAll earlier = (.ok (), t) ∧
          t.obey c = (.error f, u) ∧
          (t.Declines c f ∧ u = t.tick ∨ t.FailsInMotion (t.obey c)) := by
  refine ⟨fun a b t h => Session.obeyAll_append_of_ok h b,
    fun a b f t h => Session.obeyAll_append_of_error h b, ?_, ?_⟩
  · intro earlier c later t f h hc
    rw [Session.obeyAll_append_of_ok h]
    exact Session.obeyAll_cons_of_error hc.obey_eq
  · intro commands f u h
    obtain ⟨earlier, c, later, t, hsplit, hearlier, hc⟩ := Session.exists_refused_of_obeyAll h
    exact ⟨earlier, c, later, t, hsplit, hearlier, hc, Session.declines_or_failsInMotion hc⟩

/-- A session whose rover has no speed to turn at. -/
def stiffRover : Session Binary64 :=
  { openField with setup := { openField.setup with speeds := ⟨0.25, 0.0⟩ } }

/-- A little ahead and a turn by nothing. -/
def shortWay : List (Command Binary64) :=
  [Op.moveForward.command 0.01, Op.turnLeft.command 0.0]

theorem plan_splits_and_stops_at_first_refusal_stiffRover :
    ∃ t : Session Binary64, stiffRover.obeyAll shortWay = (.ok (), t) ∧ t.calls = 2 ∧
      t.motions.length = 1 ∧ t.history.length = 2 ∧
      stiffRover.obeyAll (shortWay ++ shortWay) = t.obeyAll shortWay ∧
      stiffRover.obeyAll (shortWay ++ Op.turnRight.command 90.0 :: shortWay) =
        (.error .divisionByZero, t.tick) ∧
      stiffRover.obeyAll ((shortWay ++ Op.turnRight.command 90.0 :: shortWay) ++ shortWay) =
        (.error .divisionByZero, t.tick) := by
  have hok : (stiffRover.obeyAll shortWay).1 = .ok () := by decide +kernel
  have hleft : (stiffRover.obeyAll shortWay).2.calls = 2 ∧
      (stiffRover.obeyAll shortWay).2.motions.length = 1 ∧
      (stiffRover.obeyAll shortWay).2.history.length = 2 := by
    decide +kernel
  have hsetup := (stiffRover.extends_obeyAll shortWay).setup
  obtain ⟨hsplit, hstop, hdeclined, -⟩ := plan_splits_and_stops_at_first_refusal stiffRover
  rcases hrun : stiffRover.obeyAll shortWay with ⟨r, t⟩
  rw [hrun] at hok hleft hsetup
  obtain rfl : r = .ok () := hok
  have hdeclines : t.Declines (Op.turnRight.command 90.0) .divisionByZero := by
    have hwithin : ((t.calls + 1 : Nat) : Int) ≤ t.setup.maxCalls := by
      rw [hleft.1, hsetup]
      decide
    refine .noSpeed hwithin (Op.ofName?_name .turnRight) (by decide +kernel) ?_
    rw [hsetup]
    decide +kernel
  have hrefused := hdeclined shortWay _ shortWay t _ hrun hdeclines
  exact ⟨t, rfl, hleft.1, hleft.2.1, hleft.2.2, hsplit _ _ _ hrun, hrefused,
    hstop _ _ _ _ hrefused⟩

end PlanarDrive
