import PlanarDrive.Goal
import PlanarDrive.Sum
import PlanarDrive.Value

/-!
# Metrics of a run

What is reported of a run: the verdict, the length of the drawn path, the duration, and
how many samples and motions there were. A jump counts with its length. Libraries round the
length of a stride differently in its last bit, so that bit of a path length is not claimed.
-/

namespace PlanarDrive

structure RunMetrics (α : Type) where
  success : Bool
  finalDistance : α
  pathLength : α
  duration : α
  samples : Int
  motions : Int
  mission : Option String
  extra : List (String × Value)

variable {α : Type} [Scalar α]

namespace Trajectory

def stride (s t : Sample α) : α :=
  Scalar.hypot (t.pose.x - s.pose.x) (t.pose.y - s.pose.y)

def strides (samples : List (Sample α)) : List α :=
  samples.zipWith stride (samples.drop 1)

def pathLength (samples : List (Sample α)) : α :=
  Sum.total (strides samples)

end Trajectory

namespace RunMetrics

def ofTrajectory (samples : List (Sample α)) (goal : Goal α) (mission : Option String)
    (motions : Nat) : Except (Fault α) (RunMetrics α) := do
  let verdict ← goal.judge samples
  let last ← Trajectory.last samples
  .ok {
    success := verdict.success
    finalDistance := verdict.finalDistance
    pathLength := Trajectory.pathLength samples
    duration := last.time
    samples := samples.length
    motions := motions
    mission := mission
    extra := []
  }

/-- The metrics as a record; extra fields may replace the others. -/
def toFields (m : RunMetrics Binary64) : List (String × Value) :=
  m.extra.foldl (fun r f => Value.insertField f.1 f.2 r) [
    ("mission_id", m.mission.elim .null .text),
    ("success", .bool m.success),
    ("final_distance", .float m.finalDistance),
    ("path_length", .float m.pathLength),
    ("duration", .float m.duration),
    ("num_samples", .int m.samples),
    ("num_primitives", .int m.motions)]

end RunMetrics

end PlanarDrive
