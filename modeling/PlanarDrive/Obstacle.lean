import PlanarDrive.Scalar

/-!
# Obstacles

An obstacle is a disc or a rectangle along the axes. A map may also have an empty place in
its list of obstacles; a ray cannot be cast past it.
-/

namespace PlanarDrive

structure Box (α : Type) where
  xmin : α
  ymin : α
  xmax : α
  ymax : α
  deriving DecidableEq, Repr

inductive Obstacle (α : Type)
  | circle (x y radius : α)
  | rectangle (x y width height : α)
  | missing
  deriving DecidableEq, Repr

def Box.around {α : Type} [Scalar α] (x y width height : α) : Box α :=
  ⟨x - width / 2.0, y - height / 2.0, x + width / 2.0, y + height / 2.0⟩

end PlanarDrive
