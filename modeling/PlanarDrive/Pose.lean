import PlanarDrive.Scalar

/-!
# Poses and samples

A pose is a position and a heading, counted from the x axis to the left and never wrapped.
A sample is a pose at a time.
-/

namespace PlanarDrive

structure Pose (α : Type) where
  x : α
  y : α
  theta : α
  deriving DecidableEq, Repr

structure Sample (α : Type) where
  time : α
  pose : Pose α
  deriving DecidableEq, Repr

variable {α : Type} [Scalar α]

def Pose.origin : Pose α :=
  ⟨0.0, 0.0, 0.0⟩

def Sample.initial (pose : Pose α) : Sample α :=
  ⟨0.0, pose⟩

@[simp] theorem Sample.pose_initial (p : Pose α) : (Sample.initial p).pose = p :=
  rfl

end PlanarDrive
