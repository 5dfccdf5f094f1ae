import PlanarDrive.Motion

/-!
# Commands and the drives they stand for

A command names an operation and gives it a number. Forward moves and turns become drives
at nominal speeds: the sign of the number is the direction, its size the distance or the
angle, and zero is no motion. A plan of commands is the list of their drives. A command is
shown as the call that does the same.
-/

namespace PlanarDrive

inductive Op
  | moveForward
  | turnLeft
  | turnRight
  deriving DecidableEq, Repr

namespace Op

def name : Op → String
  | moveForward => "move_forward"
  | turnLeft => "turn_left"
  | turnRight => "turn_right"

def ofName? (name : String) : Option Op :=
  [moveForward, turnLeft, turnRight].find? (·.name == name)

@[simp] theorem ofName?_name (op : Op) : ofName? op.name = some op := by
  cases op <;> rfl

theorem name_of_ofName? {name : String} {op : Op} (h : ofName? name = some op) :
    op.name = name := by
  have hfound := List.find?_some h
  exact beq_iff_eq.1 hfound

end Op

structure Command (α : Type) where
  op : String
  arg : α
  deriving DecidableEq, Repr

/-- Nominal speeds: forward in metres and turning in degrees per second. -/
structure Speeds (α : Type) where
  linear : α
  angular : α
  deriving DecidableEq, Repr

variable {α : Type} [Scalar α]

def Speeds.standard : Speeds α :=
  ⟨0.25, 45.0⟩

namespace Drive

def straight (distance speed : α) : Except (Fault α) (Option (Drive α)) :=
  if distance == 0.0 then .ok none
  else (Scalar.divide (Scalar.abs distance) speed).map fun duration =>
    some ⟨Scalar.copySign speed distance, 0.0, duration⟩

/-- A turn in place by a signed angle in degrees, counted to the left. -/
def turn (angle speed : α) : Except (Fault α) (Option (Drive α)) :=
  if angle == 0.0 then .ok none
  else (Scalar.divide (Scalar.abs angle) speed).map fun duration =>
    some ⟨0.0, Scalar.copySign (Scalar.radians speed) angle, duration⟩

end Drive

namespace Command

def text (c : Command α) : String :=
  c.op ++ "(" ++ Scalar.text c.arg ++ ")"

def drive (c : Command α) (speeds : Speeds α) : Except (Fault α) (Option (Drive α)) :=
  match Op.ofName? c.op with
  | some .moveForward => Drive.straight c.arg speeds.linear
  | some .turnLeft => Drive.turn c.arg speeds.angular
  | some .turnRight => Drive.turn (-c.arg) speeds.angular
  | none => .error (.unknownCommand c.op)

/-- The drives of a plan in order; commands without motion leave none. -/
def plan (commands : List (Command α)) (speeds : Speeds α) :
    Except (Fault α) (List (Drive α)) :=
  (commands.mapM fun c : Command α => c.drive speeds).map (·.filterMap id)

theorem plan_cons {c : Command α} {rest : List (Command α)} {speeds : Speeds α}
    {d : Option (Drive α)} {drives : List (Drive α)} (hc : c.drive speeds = .ok d)
    (hrest : plan rest speeds = .ok drives) :
    plan (c :: rest) speeds = .ok (d.toList ++ drives) := by
  unfold plan at hrest ⊢
  cases hm : rest.mapM fun c : Command α => c.drive speeds with
  | error f => simp [hm, Except.map] at hrest
  | ok slots =>
    simp only [hm, Except.map, Except.ok.injEq] at hrest
    subst hrest
    rw [List.mapM_cons, hc, hm]
    cases d <;> rfl

theorem drive_of_unknown {c : Command α} (h : Op.ofName? c.op = none) (speeds : Speeds α) :
    c.drive speeds = .error (.unknownCommand c.op) := by
  rw [drive, h]

end Command

end PlanarDrive
