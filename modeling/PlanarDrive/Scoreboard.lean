import PlanarDrive.RunMetrics

/-!
# Runs by mission

A scoreboard keeps the metrics of runs under their missions, in the order in which the
missions first appeared, and sums each mission up. Runs without a mission share a place.
-/

namespace PlanarDrive

/-- The runs of each mission, with no mission twice. -/
structure Scoreboard (α : Type) where
  places : List (String × List (RunMetrics α))

structure Standing (α : Type) where
  runs : α
  successRate : α
  meanFinalDistance : α
  meanPathLength : α
  deriving DecidableEq, Repr

namespace Scoreboard

variable {α : Type} [Scalar α]

def empty : Scoreboard α :=
  ⟨[]⟩

def placeOf (m : RunMetrics α) : String :=
  match m.mission with
  | none => "unknown"
  | some id => if id.isEmpty then "unknown" else id

/-- Adds a run at a place, which is opened at the end if it is new. -/
def insertAt (place : String) (m : RunMetrics α) :
    List (String × List (RunMetrics α)) → List (String × List (RunMetrics α))
  | [] => [(place, [m])]
  | (p, runs) :: rest =>
    if p = place then (p, runs ++ [m]) :: rest else (p, runs) :: insertAt place m rest

def add (b : Scoreboard α) (m : RunMetrics α) : Scoreboard α :=
  ⟨insertAt (placeOf m) m b.places⟩

def missions (b : Scoreboard α) : List String :=
  b.places.map (·.1)

def standing (runs : List (RunMetrics α)) : Standing α where
  runs := (runs.length : α)
  successRate := Sum.mean (runs.map fun m => if m.success then (1.0 : α) else 0.0)
  meanFinalDistance := Sum.mean (runs.map (·.finalDistance))
  meanPathLength := Sum.mean (runs.map (·.pathLength))

def summary (b : Scoreboard α) : List (String × Standing α) :=
  b.places.map fun p => (p.1, standing p.2)

end Scoreboard

end PlanarDrive
