import PlanarDrive.Chart.Picture
import PlanarDrive.CommandLine.Disk
import PlanarDrive.CommandLine.Options
import PlanarDrive.Journal
import PlanarDrive.Mission.Catalog
import PlanarDrive.PoseTable
import PlanarDrive.RunMetrics
import PlanarDrive.Session.Script
import PlanarDrive.Settings

/-!
# Running a mission from the command line

A run reads settings and a mission, lets the rover solve it by its script or its plan, and
reports the table of poses, a scan at the end and the verdict. It adds one record to the
journal and draws a chart when asked to. What was printed before a fault stays printed.
-/

namespace PlanarDrive.CommandLine

/-- What a run leaves behind for its user: the output, and an exit code or a fault when it
did not come to its end. -/
structure Report where
  output : String
  exit : Option Nat
  fault : Option (Fault Binary64)

structure Conduct where
  session : Session Binary64
  samples : List (Sample Binary64)
  verdict : Verdict Binary64
  metrics : RunMetrics Binary64
  rows : List PoseTable.Row

def setup (settings : Settings) (world : World Binary64) : Setup Binary64 :=
  ⟨world.obstacles, world.start, settings.dt, settings.range, settings.maxCalls,
    settings.speeds⟩

/-- Lets the rover solve a mission: by its script, or else by its plan. -/
def solve (mission : Mission) (s : Session Binary64) :
    Except (Fault Binary64) Unit × Session Binary64 :=
  match Script.find mission.id with
  | .ok script => script s
  | .error _ => s.obeyAll mission.program

def conduct (settings : Settings) (mission : Mission) : Except (Fault Binary64) Conduct := do
  let s ← Session.start (setup settings mission.world)
  let (result, s) := solve mission s
  result
  let samples ← s.trajectory
  let goal := mission.world.goal
  let verdict ← ((Attempt.start mission.id goal).complete samples).1
  let metrics ← RunMetrics.ofTrajectory samples goal (some mission.id) s.motions.length
  let rows ← PoseTable.ofSession s
  .ok ⟨s, samples, verdict, metrics, rows⟩

def fixedText (places : Nat) (x : Binary64) : String :=
  String.ofList (Decimal.fixed places x)

def introduction (mission : Mission) : List String :=
  [mission.title ++ " [" ++ mission.id ++ "]"] ++
    (if mission.briefing.isEmpty then [] else [mission.briefing]) ++ [""]

def scanLine (scan : List Binary64) : String :=
  "Final scan [m]: " ++ " ".intercalate (scan.map (fixedText 2))

def verdictLine (c : Conduct) (goal : Goal Binary64) : String :=
  "Outcome: " ++ (if c.verdict.success then "SUCCESS" else "MISSED") ++
    " (distance to goal " ++ fixedText 3 c.verdict.finalDistance ++
    " m, r=" ++ fixedText 2 goal.r ++
    " m, path " ++ fixedText 2 c.metrics.pathLength ++
    " m in " ++ fixedText 2 c.metrics.duration ++ " s)"

def journalRecord (mission : Mission) (c : Conduct) : Except (Fault Binary64) Value :=
  Journal.runRecord mission.id c.session.motions c.samples c.verdict (.record c.metrics.toFields)

variable {m : Type → Type} [Monad m] [Disk m]

/-- A run in progress: it prints lines and may end with a fault. -/
abbrev Running (m : Type → Type) :=
  ExceptT (Fault Binary64) (StateT String m)

namespace Running

def print (lines : List String) : Running m Unit :=
  modify fun output => output ++ String.join (lines.map (· ++ "\n"))

def settle {α : Type} (r : Except (Fault Binary64) α) : Running m α :=
  ExceptT.mk (pure r)

def onDisk {α : Type} (r : m (Except (Fault Binary64) α)) : Running m α :=
  ExceptT.mk (StateT.lift r)

end Running

open Running

/-- The mission of a run: a file, or an entry of the catalogue that the options or the settings
name. -/
def chooseMission (options : Options) (d : Document) : Running m Mission := do
  match options.missionFile.filter (!·.isEmpty), options.mission.filter (!·.isEmpty) with
  | some path, _ =>
    let text ← onDisk (Disk.read path)
    settle (Mission.read text)
  | none, some id => settle (Catalog.find id)
  | none, none =>
    match ← settle (Settings.defaultMission d) with
    | .plain (.text id) => settle (Catalog.find id)
    | part =>
      let id ← settle (d.shown part)
      settle (.error (.unknownMission id Catalog.ids))

def writeJournal (settings : Settings) (mission : Mission) (c : Conduct) : Running m Unit := do
  let record ← settle (journalRecord mission c)
  onDisk (Disk.extend settings.journalPath (Journal.line record))
  print ["Telemetry appended to " ++ settings.journalPath]

def writeChart (path : String) (mission : Mission) (c : Conduct) : Running m Unit := do
  let drawing := Chart.draw mission.world c.samples (some c.verdict.success)
  settle (drawing.fault.elim (.ok ()) .error)
  let target ← settle (Chart.picturePath path)
  onDisk (Disk.write target drawing.svg)
  print ["Plot written to " ++ path]

def readSettings (options : Options) : Running m String :=
  match options.settings with
  | some path => onDisk (Disk.read path)
  | none => settle (.error .wrongKind)

def perform (options : Options) : Running m Unit := do
  let d ← settle (Settings.readDocument (← readSettings options))
  let settings ← settle (Settings.ofDocument d)
  let mission ← chooseMission options d
  print (introduction mission)
  let c ← settle (conduct settings mission)
  print (PoseTable.lines c.rows ++ [""])
  let scan ← settle (Sensor.scan mission.world.obstacles c.session.pose settings.lidar)
  print [scanLine scan, verdictLine c mission.world.goal]
  if options.journal then writeJournal settings mission c
  match options.plot.filter (!·.isEmpty) with
  | some path => writeChart path mission c
  | none => pure ()

def run (args : List String) : m Report := do
  match Options.parse args with
  | .exit code => pure ⟨"", some code, none⟩
  | .run options =>
    let (result, output) ← (perform options).run.run ""
    match result with
    | .ok () => pure ⟨output, none, none⟩
    | .error f => pure ⟨output, none, some f⟩

end PlanarDrive.CommandLine
