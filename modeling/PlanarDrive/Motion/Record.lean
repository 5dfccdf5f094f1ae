import PlanarDrive.Motion
import PlanarDrive.Value

/-!
# Motions as records

Poses, samples and motions are stored as records with one field for each part. A pose may
leave parts out, which are zero then; a motion has to give all of them.
-/

namespace PlanarDrive

def Value.floatField (v : Value) (name : String) (absent : Binary64) :
    Except (Fault Binary64) Binary64 := do
  (← v.field? name).elim (.ok absent) Value.toFloat

def Value.needFloat (v : Value) (name : String) : Except (Fault Binary64) Binary64 := do
  (← v.field name).toFloat

namespace Pose

def ofValue (v : Value) : Except (Fault Binary64) (Pose Binary64) := do
  let x ← v.floatField "x" 0.0
  let y ← v.floatField "y" 0.0
  let theta ← v.floatField "theta" 0.0
  .ok ⟨x, y, theta⟩

def toValue (p : Pose Binary64) : Value :=
  .record [("x", .float p.x), ("y", .float p.y), ("theta", .float p.theta)]

end Pose

def Sample.toValue (s : Sample Binary64) : Value :=
  .record [("t", .float s.time), ("x", .float s.pose.x), ("y", .float s.pose.y),
    ("theta", .float s.pose.theta)]

def Value.kindText (kind : Option Value) : String :=
  String.ofList (kind.getD .null).quoted

namespace Motion

def ofValue (v : Value) : Except (Fault Binary64) (Motion Binary64) := do
  match ← v.field? "type" with
  | some (.text "drive") =>
    let speed ← v.needFloat "v"
    let turn ← v.needFloat "w"
    let duration ← v.needFloat "duration"
    .ok (.drive ⟨speed, turn, duration⟩)
  | some (.text "set_pose") => .ok (.teleport (← Pose.ofValue (← v.field "pose")))
  | kind => .error (.unknownMotion (Value.kindText kind))

def toValue : Motion Binary64 → Value
  | .drive d =>
    .record [("type", .text "drive"), ("v", .float d.v), ("w", .float d.w),
      ("duration", .float d.duration)]
  | .teleport p => .record [("type", .text "set_pose"), ("pose", p.toValue)]

end Motion

end PlanarDrive
