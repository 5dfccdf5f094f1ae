import PlanarDrive.Motion.Record
import PlanarDrive.Session
import PlanarDrive.Yaml.Reader

/-!
# Settings

The settings of a run come from a document, a record of sections. A section or a key that is
left out keeps its default, and so does every key of an empty section. Each key is read on its
own.
-/

namespace PlanarDrive

structure Settings where
  dt : Binary64
  linearSpeed : Binary64
  angularSpeed : Binary64
  range : Binary64
  beams : Int
  fieldOfView : Binary64
  maxCalls : Int
  journalPath : String
  deriving DecidableEq, Repr

namespace Settings

def standard : Settings where
  dt := TimeStep.standard
  linearSpeed := Speeds.standard.linear
  angularSpeed := Speeds.standard.angular
  range := Sensor.standardRange
  beams := 9
  fieldOfView := 90.0
  maxCalls := Setup.standardCalls
  journalPath := "telemetry_logs/runs.jsonl"

def speeds (s : Settings) : Speeds Binary64 :=
  ⟨s.linearSpeed, s.angularSpeed⟩

def lidar (s : Settings) : Lidar Binary64 :=
  ⟨s.beams, s.fieldOfView, s.range⟩

/-- A section of the settings; one that is empty or null counts as a record without fields. -/
def section? (d : Document) (name : String) : Except (Fault Binary64) Datum :=
  (d.field? d.root name).map fun s =>
    match s with
    | some s => if d.isNothing s then .plain (.record []) else s
    | none => .plain (.record [])

def floatField (d : Document) (part : Datum) (name : String) (absent : Binary64) :
    Except (Fault Binary64) Binary64 := do
  (← d.field? part name).elim (.ok absent) Datum.toFloat

def intField (d : Document) (part : Datum) (name : String) (absent : Int) :
    Except (Fault Binary64) Int := do
  (← d.field? part name).elim (.ok absent) Datum.toInt

/-- A text that a section may leave out; everything else is shown as text. -/
def textField (d : Document) (part : Datum) (name : String) (absent : String) :
    Except (Fault Binary64) String := do
  (← d.field? part name).elim (.ok absent) d.shown

def ofDocument (d : Document) : Except (Fault Binary64) Settings := do
  let sim ← section? d "sim"
  let rover ← section? d "rover"
  let sensor ← section? d "sensor"
  let host ← section? d "host"
  let logging ← section? d "logging"
  let dt ← floatField d sim "dt" standard.dt
  let linearSpeed ← floatField d rover "linear_speed" standard.linearSpeed
  let angularSpeed ← floatField d rover "angular_speed_deg" standard.angularSpeed
  let range ← floatField d sensor "max_range" standard.range
  let beams ← intField d sensor "num_beams" standard.beams
  let fieldOfView ← floatField d sensor "fov_deg" standard.fieldOfView
  let maxCalls ← intField d host "max_calls" standard.maxCalls
  let journalPath ← textField d logging "telemetry_path" standard.journalPath
  .ok { dt, linearSpeed, angularSpeed, range, beams, fieldOfView, maxCalls, journalPath }

/-- The document of a text; one that holds nothing is an empty record. -/
def readDocument (text : String) : Except (Fault Binary64) Document :=
  (Yaml.read text.toList).map fun d => if d.isNothing d.root then .ofValue (.record []) else d

def defaultMission (d : Document) : Except (Fault Binary64) Datum := do
  let maps := (← d.field? d.root "maps").getD (.plain (.record []))
  .ok ((← d.field? maps "default_mission").getD (.plain (.text "exo1-m1")))

end Settings

end PlanarDrive
