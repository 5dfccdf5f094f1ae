import PlanarDrive.Mission

/-!
# The missions of the catalogue

Two missions come with the library: one that a plan of three commands solves, and one that
needs the sensor.
-/

namespace PlanarDrive.Catalog

def firstCoordinates : Mission where
  id := "exo1-m1"
  title := "Nova's First Coordinates"
  briefing :=
    "Nova starts at the origin (0.00, 0.00) facing 0 deg (right). Reach the calibration " ++
      "beacon at (3.25, 1.75) using straight moves and turns."
  world := ⟨.origin, ⟨3.25, 1.75, 0.35⟩, []⟩
  program := [⟨"move_forward", 3.25⟩, ⟨"turn_left", 90.0⟩, ⟨"move_forward", 1.75⟩]

def frontSensor : Mission where
  id := "sensor_stop"
  title := "Front Sensor Lab"
  briefing :=
    "Drive forward until Nova is about 0.5 m from the wall, using get_front_distance() " ++
      "inside a loop."
  world := ⟨.origin, ⟨2.5, 0.0, 0.5⟩, [.rectangle 3.0 0.0 0.2 10.0]⟩
  program := []

def missions : List Mission :=
  [firstCoordinates, frontSensor]

def ids : List String :=
  missions.map (·.id)

def find (id : String) : Except (Fault Binary64) Mission :=
  (missions.find? (·.id == id)).elim (.error (.unknownMission id ids)) .ok

end PlanarDrive.Catalog
