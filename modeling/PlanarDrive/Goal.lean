import PlanarDrive.Trajectory

/-!
# Goals and verdicts

A goal is a disc, its edge included. A run is judged by its last sample only. An attempt
at a mission is completed once, by the first trajectory that can be judged.
-/

namespace PlanarDrive

structure Goal (α : Type) where
  x : α
  y : α
  r : α
  deriving DecidableEq, Repr

structure Verdict (α : Type) where
  success : Bool
  finalDistance : α
  deriving DecidableEq, Repr

variable {α : Type} [Scalar α]

namespace Goal

def contains (goal : Goal α) (x y : α) : Bool :=
  Scalar.hypot (x - goal.x) (y - goal.y) ≤ goal.r

def judgePose (goal : Goal α) (pose : Pose α) : Verdict α :=
  let distance := Scalar.hypot (goal.x - pose.x) (goal.y - pose.y)
  ⟨distance ≤ goal.r, distance⟩

def judge (goal : Goal α) (samples : List (Sample α)) : Except (Fault α) (Verdict α) :=
  (Trajectory.last samples).map fun s => goal.judgePose s.pose

end Goal

structure Attempt (α : Type) where
  mission : String
  goal : Goal α
  verdict : Option (Verdict α)

namespace Attempt

def start (mission : String) (goal : Goal α) : Attempt α :=
  ⟨mission, goal, none⟩

def completed (a : Attempt α) : Bool :=
  a.verdict.isSome

/-- Judges a trajectory and keeps the verdict. A completed attempt refuses any other. -/
def complete (a : Attempt α) (samples : List (Sample α)) :
    Except (Fault α) (Verdict α) × Attempt α :=
  match a.verdict with
  | some _ => (.error (.alreadyCompleted a.mission), a)
  | none =>
    match a.goal.judge samples with
    | .ok v => (.ok v, { a with verdict := some v })
    | .error f => (.error f, a)

end Attempt

end PlanarDrive
