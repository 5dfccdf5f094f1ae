import PlanarDrive.Binary64.Arithmetic
import PlanarDrive.Heading
import PlanarDrive.Session
import PlanarDrive.Text.Column

/-!
# The table of poses

One line for every call that moved the rover, with the pose before and after it. The
first line is the start. The poses are those that the session recorded, so the table shows
the path that was driven.
-/

namespace PlanarDrive

def Pose.text (pose : Pose Binary64) : Except (Fault Binary64) String :=
  (Heading.wholeDegree pose.theta).map fun degrees =>
    String.ofList ('(' :: (Decimal.fixed 2 pose.x ++ [',', ' '] ++ Decimal.fixed 2 pose.y ++
      [',', ' '])) ++ toString degrees ++ "°)"

namespace PoseTable

structure Row where
  step : Int
  command : String
  before : String
  after : String
  deriving DecidableEq, Repr

def startRow (start : Pose Binary64) : Except (Fault Binary64) Row :=
  start.text.map fun text => ⟨0, "(start)", "-", text⟩

def entryRow (step : Nat) (e : Entry Binary64) : Except (Fault Binary64) Row := do
  .ok ⟨step, e.label, ← e.before.text, ← e.after.text⟩

def entryRows : Nat → List (Entry Binary64) → Except (Fault Binary64) (List Row)
  | _, [] => .ok []
  | step, e :: rest => do
    let row ← entryRow step e
    .ok (row :: (← entryRows (step + 1) rest))

/-- The table of a session. A heading that is no number cannot be shown. -/
def ofSession (s : Session Binary64) : Except (Fault Binary64) (List Row) := do
  let first ← startRow s.setup.start
  .ok (first :: (← entryRows 1 s.history))

/-- The table of a plan, run in an empty world. -/
def ofPlan (commands : List (Command Binary64)) (start : Pose Binary64) (dt : Binary64)
    (speeds : Speeds Binary64) : Except (Fault Binary64) (List Row) := do
  let s ← Session.start
    ⟨[], start, dt, Sensor.standardRange, Setup.standardCalls, speeds⟩
  let (result, s) := s.obeyAll commands
  result
  ofSession s

def line (step command before after : String) : String :=
  String.ofList (Text.padLeft 4 step.toList ++ [' ', ' '] ++ Text.padRight 22 command.toList ++
    [' '] ++ Text.padRight 24 before.toList ++ [' '] ++ Text.padRight 24 after.toList)

def header : String :=
  line "step" "command" "before" "after"

def rule : String :=
  String.ofList (List.replicate header.length '-')

def Row.line (row : Row) : String :=
  PoseTable.line (toString row.step) row.command row.before row.after

def lines (rows : List Row) : List String :=
  header :: rule :: rows.map Row.line

def render (rows : List Row) : String :=
  "\n".intercalate (lines rows)

end PoseTable

end PlanarDrive
