import PlanarDrive.Pose
import PlanarDrive.Ray

/-!
# The range sensor

A beam reads the distance to the nearest obstacle in its direction, up to the range of the
sensor. A scan is a fan of beams from the left edge to the right edge of the field of view.
-/

namespace PlanarDrive

/-- A scanning sensor: how many beams, how wide in degrees, and how far they reach. -/
structure Lidar (α : Type) where
  beams : Int
  fieldOfView : α
  range : α
  deriving DecidableEq, Repr

namespace Sensor

variable {α : Type} [Scalar α]

def standardRange : α :=
  5.0

def nearer (distance : α) : Option α → α
  | some t => if t < distance then t else distance
  | none => distance

def nearestHit (ray : Ray α) : List (Obstacle α) → α → Except (Fault α) α
  | [], distance => .ok distance
  | o :: rest, distance => do
    let t ← ray.hit o
    nearestHit ray rest (nearer distance t)

def beam (obstacles : List (Obstacle α)) (x y angle range : α) : Except (Fault α) α :=
  if range < 0.0 then .error (.negativeRange range)
  else do
    let d ← Scalar.direction angle
    let distance ← nearestHit ⟨x, y, d.1, d.2⟩ obstacles range
    .ok (Scalar.greatest 0.0 (Scalar.least distance range))

def front (obstacles : List (Obstacle α)) (pose : Pose α) (range : α) : Except (Fault α) α :=
  beam obstacles pose.x pose.y pose.theta range

/-- The angles of a fan of at least two beams, from the left edge to the right edge. -/
def fanAngles (theta fieldOfView : α) (beams : Nat) : List α :=
  let width := Scalar.radians fieldOfView
  let left := theta + width / 2.0
  let turn := -width / ((beams - 1 : Nat) : α)
  (List.range beams).map fun i : Nat => left + (i : α) * turn

/-- The readings of a fan of beams; a single beam looks straight ahead. -/
def scan (obstacles : List (Obstacle α)) (pose : Pose α) (lidar : Lidar α) :
    Except (Fault α) (List α) :=
  if lidar.beams < 1 then .error (.tooFewBeams lidar.beams)
  else if lidar.beams = 1 then (front obstacles pose lidar.range).map ([·])
  else
    (fanAngles pose.theta lidar.fieldOfView lidar.beams.toNat).mapM fun angle =>
      beam obstacles pose.x pose.y angle lidar.range

end Sensor

end PlanarDrive
