import PlanarDrive.Obstacle

/-!
# Where a ray leaves free space

A ray starts at a point and goes along a direction of unit length. It hits a circle or a
box at a distance in front of the start; from inside, that is the way out. A ray that is
all but parallel to a pair of sides stays between them or outside.
-/

namespace PlanarDrive

structure Ray (α : Type) where
  x : α
  y : α
  dx : α
  dy : α
  deriving DecidableEq, Repr

/-- A range of distances along a ray; a side without an end is unbounded. -/
structure Span (α : Type) where
  enter : Option α
  leave : Option α
  deriving DecidableEq, Repr

variable {α : Type} [Scalar α]

namespace Span

def whole : Span α :=
  ⟨none, none⟩

/-- The later of two entries. What is no number bounds nothing. -/
def later (enter : Option α) (t : α) : Option α :=
  match enter with
  | some s => some (Scalar.greatest s t)
  | none => if Scalar.isNaN t then none else some t

def earlier (leave : Option α) (t : α) : Option α :=
  match leave with
  | some s => some (Scalar.least s t)
  | none => if Scalar.isNaN t then none else some t

def between (span : Span α) (s t : α) : Span α :=
  ⟨later span.enter (Scalar.least s t), earlier span.leave (Scalar.greatest s t)⟩

def isPast (span : Span α) : Bool :=
  match span.leave with
  | none => false
  | some far => span.enter.any (fun near => decide (far < near)) || decide (far < 0.0)

/-- The first distance of the range, or the last one when it begins at the start of the ray
or behind it. -/
def first? (span : Span α) : Option α :=
  if span.isPast then none
  else
    match span.enter.filter (fun near => decide (0.0 < near)) with
    | some near => some near
    | none => span.leave.filter fun far => !Scalar.isInfinite far

end Span

namespace Ray

/-- A direction component smaller than this counts as parallel to the sides. -/
def parallelBound : α :=
  1e-8

/-- Narrows a range to the distances between two parallel sides; `none` when the ray runs
outside them. -/
def betweenSides (start step low high : α) (span : Span α) :
    Except (Fault α) (Option (Span α)) :=
  if Scalar.abs step < parallelBound then
    .ok (if start < low ∨ high < start then none else some span)
  else do
    let s ← Scalar.divide (low - start) step
    let t ← Scalar.divide (high - start) step
    .ok (some (span.between s t))

def hitBox (ray : Ray α) (box : Box α) : Except (Fault α) (Option α) := do
  match ← betweenSides ray.x ray.dx box.xmin box.xmax Span.whole with
  | none => .ok none
  | some span =>
    match ← betweenSides ray.y ray.dy box.ymin box.ymax span with
    | none => .ok none
    | some span => .ok span.first?

/-- The distance to a circle: the smaller root in front of the start. -/
def hitCircle (ray : Ray α) (x y radius : α) : Except (Fault α) (Option α) :=
  let lx := x - ray.x
  let ly := y - ray.y
  let along := lx * ray.dx + ly * ray.dy
  let across := lx * lx + ly * ly - along * along
  if radius * radius < across then .ok none
  else do
    let half ← Scalar.squareRoot (Scalar.greatest (radius * radius - across) 0.0)
    .ok (if 0.0 < along - half then some (along - half)
      else if 0.0 < along + half then some (along + half) else none)

def hit (ray : Ray α) : Obstacle α → Except (Fault α) (Option α)
  | .circle x y radius => ray.hitCircle x y radius
  | .rectangle x y width height => ray.hitBox (Box.around x y width height)
  | .missing => .error .unsupportedObstacle

end Ray

end PlanarDrive
