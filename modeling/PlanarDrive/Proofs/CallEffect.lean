import PlanarDrive.Proofs.Fallible
import PlanarDrive.Session.Program

/-!
# What one call does to a session

Every call is counted. Beyond the limit it is refused and does nothing else. Within the limit it
is refused for a reason of its own, or answers a reading, or enters a call without motion into
the history, or carries a motion out, or records a motion that the rover cannot carry out to the
end. The same holds of one command of a plan. All that a run keeps is derived from this.
-/

namespace PlanarDrive

variable {α β γ : Type} [Scalar α]

theorem Scalar.divide_eq_error_iff {a b : α} {f : Fault α} :
    divide a b = .error f ↔ (b == 0.0) = true ∧ f = .divisionByZero := by
  unfold divide
  split
  · next h => simp [h, eq_comm]
  · next h => simp [h]

namespace Drive

theorem straight_eq_error_iff {distance speed : α} {f : Fault α} :
    straight distance speed = .error f ↔
      (distance == 0.0) = false ∧ (speed == 0.0) = true ∧ f = .divisionByZero := by
  unfold straight
  split
  · next h => simp [h]
  · next h => simp [h, map_eq_error_iff, Scalar.divide_eq_error_iff]

theorem turn_eq_error_iff {angle speed : α} {f : Fault α} :
    turn angle speed = .error f ↔
      (angle == 0.0) = false ∧ (speed == 0.0) = true ∧ f = .divisionByZero := by
  unfold turn
  split
  · next h => simp [h]
  · next h => simp [h, map_eq_error_iff, Scalar.divide_eq_error_iff]

end Drive

namespace Op

def command (op : Op) (arg : α) : Command α :=
  ⟨op.name, arg⟩

omit [Scalar α] in
theorem command_of_ofName? {c : Command α} {op : Op} (h : ofName? c.op = some op) :
    op.command c.arg = c := by
  rw [command, name_of_ofName? h]

/-- How far the rover is to go or to turn; to the right it turns by a negative angle. -/
def amount (op : Op) (arg : α) : α :=
  match op with
  | moveForward | turnLeft => arg
  | turnRight => -arg

def speed (op : Op) (speeds : Speeds α) : α :=
  match op with
  | moveForward => speeds.linear
  | turnLeft | turnRight => speeds.angular

/-- An operation has no drive only if there is something to do and no speed to do it at. -/
theorem drive_command_eq_error_iff {op : Op} {arg : α} {speeds : Speeds α} {f : Fault α} :
    (op.command arg).drive speeds = .error f ↔
      (op.amount arg == 0.0) = false ∧ (op.speed speeds == 0.0) = true ∧
        f = .divisionByZero := by
  cases op with
  | moveForward => exact Drive.straight_eq_error_iff
  | turnLeft => exact Drive.turn_eq_error_iff
  | turnRight => exact Drive.turn_eq_error_iff

end Op

namespace Session

/-- The session after a call that records a motion and carries it out as far as it can. -/
def carried (s : Session α) (m : Motion α) : Session α :=
  { s.tick with
    live := (m.perform s.dt s.live).last s.live
    motions := s.motions ++ [m] }

def entered (s t : Session α) (label : String) : Session α :=
  { t with history := t.history ++ [⟨label, s.pose, t.pose⟩] }

/-- The answer and the session that one counted call can leave. -/
inductive Effect (s : Session α) : Except (Fault α) β × Session α → Prop
  | limited (h : s.setup.maxCalls < (s.calls + 1 : Nat)) :
      Effect s (.error (.callLimit s.setup.maxCalls), s.tick)
  | refused (h : (s.calls + 1 : Nat) ≤ s.setup.maxCalls) (f : Fault α) :
      Effect s (.error f, s.tick)
  | answered (h : (s.calls + 1 : Nat) ≤ s.setup.maxCalls) (b : β) :
      Effect s (.ok b, s.tick)
  | noted (h : (s.calls + 1 : Nat) ≤ s.setup.maxCalls) (b : β) (label : String) :
      Effect s (.ok b, s.entered s.tick label)
  | moved (h : (s.calls + 1 : Nat) ≤ s.setup.maxCalls) (b : β) (label : String) (m : Motion α)
      (hm : (m.perform s.dt s.live).fault = none) :
      Effect s (.ok b, s.entered (s.carried m) label)
  | failed (h : (s.calls + 1 : Nat) ≤ s.setup.maxCalls) (f : Fault α) (m : Motion α)
      (hm : (m.perform s.dt s.live).fault = some f) :
      Effect s (.error f, s.carried m)

theorem Effect.map {s t : Session α} {r : Except (Fault α) β} (g : β → γ)
    (h : s.Effect (r, t)) : s.Effect (r.map g, t) := by
  cases h with
  | limited h => exact .limited h
  | refused h f => exact .refused h f
  | answered h b => exact .answered h (g b)
  | noted h b label => exact .noted h (g b) label
  | moved h b label m hm => exact .moved h (g b) label m hm
  | failed h f m hm => exact .failed h f m hm

section Counting

variable {s : Session α} {c : Command α}

theorem counted_of_le (h : (s.calls + 1 : Nat) ≤ s.setup.maxCalls) :
    s.counted = (.ok (), s.tick) := by
  rw [counted, if_neg (Int.not_lt.2 h)]

theorem counted_of_lt (h : s.setup.maxCalls < (s.calls + 1 : Nat)) :
    s.counted = (.error (.callLimit s.setup.maxCalls), s.tick) := by
  rw [counted, if_pos h]

theorem obey_of_lt (h : s.setup.maxCalls < (s.calls + 1 : Nat)) :
    s.obey c = (.error (.callLimit s.setup.maxCalls), s.tick) := by
  rw [obey, counted_of_lt h]

/-- Within the limit of calls a command is carried out. -/
theorem obey_of_le (h : (s.calls + 1 : Nat) ≤ s.setup.maxCalls) :
    s.obey c = s.tick.recordDrive c.text (c.drive s.setup.speeds) := by
  rw [obey, counted_of_le h]
  rfl

theorem obey_of_unknown (h : (s.calls + 1 : Nat) ≤ s.setup.maxCalls)
    (hop : Op.ofName? c.op = none) : s.obey c = (.error (.unknownCommand c.op), s.tick) := by
  rw [obey_of_le h, Command.drive_of_unknown hop]
  rfl

end Counting

/-- The text of a call that places the rover is that of no command. -/
theorem placeLabel_ne_text (x y heading : α) (op : Op) (arg : α) :
    placeLabel x y heading ≠ (op.command arg).text := by
  intro h
  have hfirst := congrArg (·.toList.head?) h
  cases op <;> simp [placeLabel, Command.text, Op.command, Op.name] at hfirst

variable (s : Session α)

theorem counted_eq : s.counted = (.ok (), s.tick) ∧ (s.calls + 1 : Nat) ≤ s.setup.maxCalls ∨
    s.counted = (.error (.callLimit s.setup.maxCalls), s.tick) ∧
      s.setup.maxCalls < (s.calls + 1 : Nat) := by
  by_cases h : (s.calls + 1 : Nat) ≤ s.setup.maxCalls
  · exact .inl ⟨counted_of_le h, h⟩
  · exact .inr ⟨counted_of_lt (Int.not_le.1 h), Int.not_le.1 h⟩

theorem record_of_performs {m : Motion α} (hm : (m.perform s.dt s.live).fault = none)
    (label : String) :
    s.tick.record label (some m) = (.ok (), s.entered (s.carried m) label) := by
  have htick : m.perform s.tick.dt s.tick.live = m.perform s.dt s.live := rfl
  simp only [record, carryOut?, carryOut, htick, hm]
  rfl

theorem record_of_fails {m : Motion α} {f : Fault α}
    (hm : (m.perform s.dt s.live).fault = some f) (label : String) :
    s.tick.record label (some m) = (.error f, s.carried m) := by
  have htick : m.perform s.tick.dt s.tick.live = m.perform s.dt s.live := rfl
  simp only [record, carryOut?, carryOut, htick, hm]
  rfl

theorem effect_record (h : (s.calls + 1 : Nat) ≤ s.setup.maxCalls) (label : String)
    (m : Option (Motion α)) : s.Effect (s.tick.record label m) := by
  cases m with
  | none => exact .noted h () label
  | some m =>
    cases hm : (m.perform s.dt s.live).fault with
    | none =>
      rw [s.record_of_performs hm]
      exact .moved h () label m hm
    | some f =>
      rw [s.record_of_fails hm]
      exact .failed h f m hm

theorem effect_recordDrive (h : (s.calls + 1 : Nat) ≤ s.setup.maxCalls) (label : String)
    (d : Except (Fault α) (Option (Drive α))) : s.Effect (s.tick.recordDrive label d) := by
  cases d with
  | ok d => exact s.effect_record h label _
  | error f => exact .refused h f

/-- A call of an operation records the drive of its command, under the text of its command. -/
theorem steerBy_eq (op : Op) (arg : α) :
    s.steerBy op arg =
      s.recordDrive (op.command arg).text ((op.command arg).drive s.setup.speeds) := by
  cases op with
  | moveForward =>
    have hlabel : "move_forward(" = "move_forward" ++ "(" := by decide
    rw [steerBy, hlabel]
    rfl
  | turnLeft =>
    have hlabel : "turn_left(" = "turn_left" ++ "(" := by decide
    rw [steerBy, hlabel]
    rfl
  | turnRight =>
    have hlabel : "turn_right(" = "turn_right" ++ "(" := by decide
    rw [steerBy, hlabel]
    rfl

theorem effect_steer (op : Op) (arg : Argument α) : s.Effect (s.steer op arg) := by
  unfold steer
  rcases s.counted_eq with ⟨hc, h⟩ | ⟨hc, h⟩
  · rw [hc]
    cases arg with
    | ok a =>
      dsimp only
      rw [steerBy_eq]
      exact s.effect_recordDrive h _ _
    | error f => exact .refused h f
  · rw [hc]
    exact .limited h

/-- Within the limit of calls the sensor is read where the rover is. -/
theorem look_eq :
    s.look = (Sensor.front s.setup.obstacles s.pose s.setup.range, s.tick) ∧
        (s.calls + 1 : Nat) ≤ s.setup.maxCalls ∨
      s.look = (.error (.callLimit s.setup.maxCalls), s.tick) ∧
        s.setup.maxCalls < (s.calls + 1 : Nat) := by
  unfold look
  rcases s.counted_eq with ⟨hc, h⟩ | ⟨hc, h⟩
  · rw [hc]
    exact .inl ⟨rfl, h⟩
  · rw [hc]
    exact .inr ⟨rfl, h⟩

/-- Within the limit of calls an operation is carried out as its command is. -/
theorem steer_eq (op : Op) (arg : α) :
    s.steer op (.ok arg) = s.tick.recordDrive (op.command arg).text
          ((op.command arg).drive s.setup.speeds) ∧ (s.calls + 1 : Nat) ≤ s.setup.maxCalls ∨
      s.steer op (.ok arg) = (.error (.callLimit s.setup.maxCalls), s.tick) ∧
        s.setup.maxCalls < (s.calls + 1 : Nat) := by
  unfold steer
  rcases s.counted_eq with ⟨hc, h⟩ | ⟨hc, h⟩
  · rw [hc]
    exact .inl ⟨s.tick.steerBy_eq op arg, h⟩
  · rw [hc]
    exact .inr ⟨rfl, h⟩

/-- Within the limit of calls the rover is put where the numbers say. -/
theorem place_eq (x y heading : α) :
    s.place (.ok x) (.ok y) (.ok heading) =
          (.ok (), s.entered (s.carried (.teleport ⟨x, y, Scalar.radians heading⟩))
            (placeLabel x y heading)) ∧
        (s.calls + 1 : Nat) ≤ s.setup.maxCalls ∨
      s.place (.ok x) (.ok y) (.ok heading) = (.error (.callLimit s.setup.maxCalls), s.tick) ∧
        s.setup.maxCalls < (s.calls + 1 : Nat) := by
  unfold place
  rcases s.counted_eq with ⟨hc, h⟩ | ⟨hc, h⟩
  · rw [hc]
    exact .inl ⟨s.record_of_performs rfl _, h⟩
  · rw [hc]
    exact .inr ⟨rfl, h⟩

theorem effect_look : s.Effect s.look := by
  rcases s.look_eq with ⟨hl, h⟩ | ⟨hl, h⟩
  · rw [hl]
    cases hr : Sensor.front s.setup.obstacles s.pose s.setup.range with
    | ok d => exact .answered h d
    | error f => exact .refused h f
  · rw [hl]
    exact .limited h

theorem effect_place (x y heading : Argument α) : s.Effect (s.place x y heading) := by
  unfold place
  rcases s.counted_eq with ⟨hc, h⟩ | ⟨hc, h⟩
  · rw [hc]
    cases x with
    | error f => exact .refused h f
    | ok x =>
      cases y with
      | error f => exact .refused h f
      | ok y =>
        cases heading with
        | error f => exact .refused h f
        | ok a => exact s.effect_record h _ _
  · rw [hc]
    exact .limited h

/-- Every call of a script has one of the six effects. -/
theorem effect_call (c : Call α) : s.Effect (s.call c) := by
  cases c with
  | steer op arg => exact (s.effect_steer op arg).map _
  | look => exact s.effect_look.map _
  | place x y heading => exact (s.effect_place x y heading).map _

/-- Every command of a plan has one of the six effects. -/
theorem effect_obey (c : Command α) : s.Effect (s.obey c) := by
  by_cases h : (s.calls + 1 : Nat) ≤ s.setup.maxCalls
  · rw [obey_of_le h]
    exact s.effect_recordDrive h _ _
  · rw [obey_of_lt (Int.not_le.1 h)]
    exact .limited (Int.not_le.1 h)

end Session

end PlanarDrive
