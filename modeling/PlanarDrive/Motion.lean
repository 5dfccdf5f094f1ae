import PlanarDrive.Pose
import PlanarDrive.TimeStep

/-!
# Motions and the samples they leave

A motion is a drive at constant speed and turn rate or a jump to a pose. A drive is
integrated in equal Euler steps. The samples that a motion leaves are kept when it
fails half way, since the rover has then moved as far as they tell.
-/

namespace PlanarDrive

/-- Forward speed `v` and turn rate `w`, held for a duration. -/
structure Drive (α : Type) where
  v : α
  w : α
  duration : α
  deriving DecidableEq, Repr

inductive Motion (α : Type)
  | drive (segment : Drive α)
  | teleport (target : Pose α)
  deriving DecidableEq, Repr

/-- The samples of a motion in order, and the fault that ended it early. -/
structure Trace (α : Type) where
  samples : List (Sample α)
  fault : Option (Fault α)

namespace Trace

variable {α : Type}

def empty : Trace α :=
  ⟨[], none⟩

def last (trace : Trace α) (s : Sample α) : Sample α :=
  trace.samples.getLastD s

end Trace

variable {α : Type} [Scalar α]

namespace Sample

/-- One Euler step: the heading at its beginning gives the direction. -/
def advance (s : Sample α) (v w dt : α) : Except (Fault α) (Sample α) :=
  (Scalar.direction s.pose.theta).map fun d =>
    ⟨s.time + dt, ⟨s.pose.x + v * d.1 * dt, s.pose.y + v * d.2 * dt, s.pose.theta + w * dt⟩⟩

def advanceTimes (v w dt : α) : Nat → List (Sample α) → Sample α → Trace α
  | 0, past, _ => ⟨past.reverse, none⟩
  | n + 1, past, s =>
    match s.advance v w dt with
    | .ok t => advanceTimes v w dt n (t :: past) t
    | .error f => ⟨past.reverse, some f⟩

theorem advanceTimes_past (v w dt : α) (n : Nat) (past : List (Sample α)) (s : Sample α) :
    advanceTimes v w dt n past s =
      ⟨past.reverse ++ (advanceTimes v w dt n [] s).samples,
        (advanceTimes v w dt n [] s).fault⟩ := by
  induction n generalizing past s with
  | zero => simp [advanceTimes]
  | succ n ih =>
    cases h : s.advance v w dt with
    | error f => simp [advanceTimes, h]
    | ok t =>
      simp only [advanceTimes, h]
      rw [ih (t :: past), ih [t]]
      simp

@[simp] theorem advanceTimes_zero (v w dt : α) (s : Sample α) :
    advanceTimes v w dt 0 [] s = Trace.empty :=
  rfl

theorem advanceTimes_succ (v w dt : α) (n : Nat) (s : Sample α) :
    advanceTimes v w dt (n + 1) [] s =
      match s.advance v w dt with
      | .ok t =>
        ⟨t :: (advanceTimes v w dt n [] t).samples, (advanceTimes v w dt n [] t).fault⟩
      | .error f => ⟨[], some f⟩ := by
  cases h : s.advance v w dt with
  | error f => simp [advanceTimes, h]
  | ok t => simp [advanceTimes, h, advanceTimes_past v w dt n [t]]

end Sample

namespace Drive

/-- How many steps a drive is cut into: about one for each nominal step, and at least one. -/
def stepCount (d : Drive α) (dt : TimeStep α) : Except (Fault α) Nat :=
  (Scalar.nearest (d.duration / dt.value)).map fun n => max 1 n.toNat

/-- The steps share the duration equally, so the drive lasts exactly as long as it says. A
drive of no duration leaves nothing. -/
def perform (d : Drive α) (dt : TimeStep α) (s : Sample α) : Trace α :=
  if 0.0 < d.duration then
    match d.stepCount dt with
    | .ok n => Sample.advanceTimes d.v d.w (d.duration / (n : α)) n [] s
    | .error f => ⟨[], some f⟩
  else .empty

end Drive

namespace Motion

def perform (m : Motion α) (dt : TimeStep α) (s : Sample α) : Trace α :=
  match m with
  | drive d => d.perform dt s
  | teleport p => ⟨[⟨s.time, p⟩], none⟩

def performAll (dt : TimeStep α) : List (Motion α) → Sample α → Trace α
  | [], _ => .empty
  | m :: rest, s =>
    let trace := m.perform dt s
    match trace.fault with
    | some _ => trace
    | none =>
      let next := performAll dt rest (trace.last s)
      ⟨trace.samples ++ next.samples, next.fault⟩

end Motion

end PlanarDrive
