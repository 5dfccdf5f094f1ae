import PlanarDrive.Motion

/-!
# Trajectories

A trajectory lists the samples of a plan from its start on, which is the first sample. It
is built from the plan in one pass and refused when a motion fails.
-/

namespace PlanarDrive

namespace Trajectory

variable {α : Type} [Scalar α]

def build (motions : List (Motion α)) (start : Pose α) (dt : TimeStep α) :
    Except (Fault α) (List (Sample α)) :=
  let trace := Motion.performAll dt motions (.initial start)
  match trace.fault with
  | none => .ok (.initial start :: trace.samples)
  | some f => .error f

/-- A plan in which places may be empty. What comes before an empty place is carried out. -/
def buildWithGaps (slots : List (Option (Motion α))) (start : Pose α) (dt : TimeStep α) :
    Except (Fault α) (List (Sample α)) := do
  let samples ← build ((slots.takeWhile (·.isSome)).filterMap id) start dt
  if slots.all (·.isSome) then .ok samples else .error .unsupportedMotion

def last (samples : List (Sample α)) : Except (Fault α) (Sample α) :=
  samples.getLast?.elim (.error .outOfRange) .ok

def duration : Motion α → Option α
  | .drive d => if 0.0 < d.duration then some d.duration else none
  | .teleport _ => none

def totalDuration (motions : List (Motion α)) : α :=
  (motions.filterMap duration).foldl (· + ·) 0.0

end Trajectory

end PlanarDrive
