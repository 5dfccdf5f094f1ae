import PlanarDrive.Goal
import PlanarDrive.Obstacle

/-!
# Worlds

The world of a mission: where the rover starts, where it should go and what stands around.
-/

namespace PlanarDrive

structure World (α : Type) where
  start : Pose α
  goal : Goal α
  obstacles : List (Obstacle α)
  deriving DecidableEq, Repr

variable {α : Type} [Scalar α]

def Goal.origin : Goal α :=
  ⟨0.0, 0.0, 0.0⟩

def World.empty : World α :=
  ⟨.origin, .origin, []⟩

end PlanarDrive
