import PlanarDrive.Motion.Record
import PlanarDrive.World

/-!
# Worlds as records

A world may leave its start, its goal or its obstacles out. A goal and an obstacle have to
give all their numbers.
-/

namespace PlanarDrive

namespace Obstacle

def ofValue (v : Value) : Except (Fault Binary64) (Obstacle Binary64) := do
  match ← v.field? "type" with
  | some (.text "circle") =>
    let x ← v.needFloat "x"
    let y ← v.needFloat "y"
    let radius ← v.needFloat "radius"
    .ok (.circle x y radius)
  | some (.text "rectangle") =>
    let x ← v.needFloat "x"
    let y ← v.needFloat "y"
    let width ← v.needFloat "width"
    let height ← v.needFloat "height"
    .ok (.rectangle x y width height)
  | kind => .error (.unknownObstacle (Value.kindText kind))

def toValue : Obstacle Binary64 → Value
  | .circle x y radius =>
    .record [("type", .text "circle"), ("x", .float x), ("y", .float y),
      ("radius", .float radius)]
  | .rectangle x y width height =>
    .record [("type", .text "rectangle"), ("x", .float x), ("y", .float y),
      ("width", .float width), ("height", .float height)]
  | .missing => .null

end Obstacle

namespace Goal

def ofValue (v : Value) : Except (Fault Binary64) (Goal Binary64) := do
  let x ← v.needFloat "x"
  let y ← v.needFloat "y"
  let r ← v.needFloat "r"
  .ok ⟨x, y, r⟩

def toValue (g : Goal Binary64) : Value :=
  .record [("x", .float g.x), ("y", .float g.y), ("r", .float g.r)]

end Goal

namespace World

def ofValue (v : Value) : Except (Fault Binary64) (World Binary64) := do
  let start ← Pose.ofValue ((← v.field? "start").getD (.record []))
  let goal ← (← v.field? "goal").elim (.ok .origin) Goal.ofValue
  let obstacles ← (← ((← v.field? "obstacles").getD (.list [])).elements).mapM Obstacle.ofValue
  .ok ⟨start, goal, obstacles⟩

def toValue (w : World Binary64) : Value :=
  .record [("start", w.start.toValue), ("goal", w.goal.toValue),
    ("obstacles", .list (w.obstacles.map Obstacle.toValue))]

end World

end PlanarDrive
