import PlanarDrive.Command
import PlanarDrive.Sensor
import PlanarDrive.Trajectory

/-!
# Sessions

A session lets a script drive a rover through a world. It counts every call and refuses
those beyond a limit, carries motions out as they come, so that the sensor reads at the
live pose, and records the motions and a history of the calls that moved the rover.

Operations return what they answer together with the session after them: a refused call
leaves a session as well.
-/

namespace PlanarDrive

/-- A call that moves the rover, as text, with the live pose before and after it. -/
structure Entry (α : Type) where
  label : String
  before : Pose α
  after : Pose α
  deriving DecidableEq, Repr

structure Setup (α : Type) where
  obstacles : List (Obstacle α)
  start : Pose α
  dt : α
  range : α
  maxCalls : Int
  speeds : Speeds α
  deriving DecidableEq, Repr

def Setup.standardCalls : Int :=
  10000

structure Session (α : Type) [Scalar α] where
  setup : Setup α
  dt : TimeStep α
  live : Sample α
  motions : List (Motion α)
  history : List (Entry α)
  calls : Nat

/-- An argument of a call: a number, or the fault of what was given in its place. -/
abbrev Argument (α : Type) :=
  Except (Fault α) α

inductive Call (α : Type)
  | steer (op : Op) (arg : Argument α)
  | look
  | place (x y heading : Argument α)

namespace Session

variable {α : Type} [Scalar α]

def start (setup : Setup α) : Except (Fault α) (Session α) :=
  (TimeStep.check setup.dt).map fun dt => ⟨setup, dt, .initial setup.start, [], [], 0⟩

theorem start_eq_ok {setup : Setup α} {s : Session α} (h : start setup = .ok s) :
    TimeStep.check setup.dt = .ok s.dt ∧ s = ⟨setup, s.dt, .initial setup.start, [], [], 0⟩ := by
  unfold start at h
  cases hdt : TimeStep.check setup.dt with
  | error f => simp [hdt, Except.map] at h
  | ok dt =>
    simp only [hdt, Except.map, Except.ok.injEq] at h
    subst h
    exact ⟨rfl, rfl⟩

def pose (s : Session α) : Pose α :=
  s.live.pose

def tick (s : Session α) : Session α :=
  { s with calls := s.calls + 1 }

/-- Counts a call, and refuses it beyond the limit. -/
def counted (s : Session α) : Except (Fault α) Unit × Session α :=
  (if s.setup.maxCalls < (s.calls + 1 : Nat) then .error (.callLimit s.setup.maxCalls) else .ok (),
    s.tick)

/-- Records a motion and carries it out. A motion that fails stays recorded, with the rover
where it got to. -/
def carryOut (s : Session α) (m : Motion α) : Except (Fault α) Unit × Session α :=
  let trace := m.perform s.dt s.live
  (trace.fault.elim (.ok ()) .error,
    { s with motions := s.motions ++ [m], live := trace.last s.live })

def carryOut? (s : Session α) : Option (Motion α) → Except (Fault α) Unit × Session α
  | none => (.ok (), s)
  | some m => s.carryOut m

/-- Carries a motion out, if there is one, and enters the call into the history. -/
def record (s : Session α) (label : String) (m : Option (Motion α)) :
    Except (Fault α) Unit × Session α :=
  match s.carryOut? m with
  | (.ok (), t) => (.ok (), { t with history := t.history ++ [⟨label, s.pose, t.pose⟩] })
  | (.error f, t) => (.error f, t)

def recordDrive (s : Session α) (label : String) (d : Except (Fault α) (Option (Drive α))) :
    Except (Fault α) Unit × Session α :=
  match d with
  | .ok d => s.record label (d.map .drive)
  | .error f => (.error f, s)

def steerBy (s : Session α) (op : Op) (a : α) : Except (Fault α) Unit × Session α :=
  match op with
  | .moveForward =>
    s.recordDrive ("move_forward(" ++ Scalar.text a ++ ")") (Drive.straight a s.setup.speeds.linear)
  | .turnLeft =>
    s.recordDrive ("turn_left(" ++ Scalar.text a ++ ")") (Drive.turn a s.setup.speeds.angular)
  | .turnRight =>
    s.recordDrive ("turn_right(" ++ Scalar.text a ++ ")") (Drive.turn (-a) s.setup.speeds.angular)

def steer (s : Session α) (op : Op) (arg : Argument α) : Except (Fault α) Unit × Session α :=
  match s.counted with
  | (.ok (), s) =>
    match arg with
    | .ok a => s.steerBy op a
    | .error f => (.error f, s)
  | (.error f, s) => (.error f, s)

def look (s : Session α) : Except (Fault α) α × Session α :=
  match s.counted with
  | (.ok (), s) => (Sensor.front s.setup.obstacles s.pose s.setup.range, s)
  | (.error f, s) => (.error f, s)

def placeLabel (x y heading : α) : String :=
  "set_pose(" ++ Scalar.text x ++ ", " ++ Scalar.text y ++ ", " ++ Scalar.text heading ++ ")"

def place (s : Session α) (x y heading : Argument α) : Except (Fault α) Unit × Session α :=
  match s.counted with
  | (.ok (), s) =>
    match x, y, heading with
    | .ok x, .ok y, .ok h =>
      s.record (placeLabel x y h) (some (.teleport ⟨x, y, Scalar.radians h⟩))
    | .error f, _, _ => (.error f, s)
    | _, .error f, _ => (.error f, s)
    | _, _, .error f => (.error f, s)
  | (.error f, s) => (.error f, s)

def call (s : Session α) : Call α → Except (Fault α) (Option α) × Session α
  | .steer op arg =>
    let r := s.steer op arg
    (r.1.map fun _ => none, r.2)
  | .look =>
    let r := s.look
    (r.1.map some, r.2)
  | .place x y heading =>
    let r := s.place x y heading
    (r.1.map fun _ => none, r.2)

def obey (s : Session α) (c : Command α) : Except (Fault α) Unit × Session α :=
  match s.counted with
  | (.ok (), s) => s.recordDrive c.text (c.drive s.setup.speeds)
  | (.error f, s) => (.error f, s)

def obeyAll (s : Session α) : List (Command α) → Except (Fault α) Unit × Session α
  | [] => (.ok (), s)
  | c :: rest =>
    match s.obey c with
    | (.ok (), s) => s.obeyAll rest
    | (.error f, s) => (.error f, s)

def trajectory (s : Session α) : Except (Fault α) (List (Sample α)) :=
  Trajectory.build s.motions s.setup.start s.dt

@[simp] theorem calls_tick (s : Session α) : s.tick.calls = s.calls + 1 :=
  rfl

@[simp] theorem setup_tick (s : Session α) : s.tick.setup = s.setup :=
  rfl

theorem counted_fst_eq_ok_iff (s : Session α) :
    s.counted.1 = .ok () ↔ (s.calls + 1 : Nat) ≤ s.setup.maxCalls := by
  unfold counted
  split <;> simp_all

theorem calls_carryOut? (s : Session α) (m : Option (Motion α)) :
    (s.carryOut? m).2.calls = s.calls := by
  cases m <;> rfl

theorem setup_carryOut? (s : Session α) (m : Option (Motion α)) :
    (s.carryOut? m).2.setup = s.setup := by
  cases m <;> rfl

theorem calls_record (s : Session α) (label : String) (m : Option (Motion α)) :
    (s.record label m).2.calls = s.calls := by
  have h := s.calls_carryOut? m
  unfold record
  split <;> simp_all

theorem setup_record (s : Session α) (label : String) (m : Option (Motion α)) :
    (s.record label m).2.setup = s.setup := by
  have h := s.setup_carryOut? m
  unfold record
  split <;> simp_all

theorem calls_recordDrive (s : Session α) (label : String)
    (d : Except (Fault α) (Option (Drive α))) : (s.recordDrive label d).2.calls = s.calls := by
  cases d with
  | ok d => exact s.calls_record _ _
  | error f => rfl

theorem setup_recordDrive (s : Session α) (label : String)
    (d : Except (Fault α) (Option (Drive α))) : (s.recordDrive label d).2.setup = s.setup := by
  cases d with
  | ok d => exact s.setup_record _ _
  | error f => rfl

theorem calls_steerBy (s : Session α) (op : Op) (a : α) :
    (s.steerBy op a).2.calls = s.calls := by
  cases op <;> exact s.calls_recordDrive _ _

theorem setup_steerBy (s : Session α) (op : Op) (a : α) :
    (s.steerBy op a).2.setup = s.setup := by
  cases op <;> exact s.setup_recordDrive _ _

theorem calls_steer (s : Session α) (op : Op) (arg : Argument α) :
    (s.steer op arg).2.calls = s.calls + 1 := by
  unfold steer counted
  split
  · next h =>
    obtain ⟨-, rfl⟩ := Prod.mk.inj h
    split
    · exact calls_steerBy ..
    · rfl
  · next h =>
    obtain ⟨-, rfl⟩ := Prod.mk.inj h
    rfl

theorem setup_steer (s : Session α) (op : Op) (arg : Argument α) :
    (s.steer op arg).2.setup = s.setup := by
  unfold steer counted
  split
  · next h =>
    obtain ⟨-, rfl⟩ := Prod.mk.inj h
    split
    · exact setup_steerBy ..
    · rfl
  · next h =>
    obtain ⟨-, rfl⟩ := Prod.mk.inj h
    rfl

theorem look_snd (s : Session α) : s.look.2 = s.tick := by
  unfold look counted
  split
  · next h => exact (Prod.mk.inj h).2.symm
  · next h => exact (Prod.mk.inj h).2.symm

theorem le_maxCalls_of_look {s t : Session α} {d : α} (h : s.look = (.ok d, t)) :
    (s.calls + 1 : Nat) ≤ s.setup.maxCalls := by
  apply s.counted_fst_eq_ok_iff.1
  unfold look at h
  split at h
  · next h' => rw [h']
  · simp at h

end Session

end PlanarDrive
