import PlanarDrive.Session

/-!
# Scripts that look before they move

A creeping script reads the sensor, ends when the reading is below a bound, and otherwise
moves and reads again. Every turn of the loop costs calls, so the limit on calls ends it.
Missions that need live readings have such a script in place of a plan.
-/

namespace PlanarDrive

variable {α : Type} [Scalar α]

namespace Session

def creep (stop step : α) (s : Session α) : Except (Fault α) Unit × Session α :=
  match _hs : s.look with
  | (.error f, t) => (.error f, t)
  | (.ok d, t) =>
    if d < stop then (.ok (), t)
    else
      match _ht : t.steer .moveForward (.ok step) with
      | (.ok (), u) => creep stop step u
      | (.error f, u) => (.error f, u)
termination_by (s.setup.maxCalls - s.calls).toNat
decreasing_by
  have hl := le_maxCalls_of_look _hs
  have ht : t = s.tick := by rw [← look_snd, _hs]
  have hc := t.calls_steer .moveForward (.ok step)
  have hm := t.setup_steer .moveForward (.ok step)
  simp only [_ht] at hc hm
  subst ht
  simp only [calls_tick, setup_tick] at hc hm
  simp only [hm]
  omega

end Session

namespace Script

/-- Creeps from the origin toward a wall until it is less than half a metre away. -/
def stopAtWall (s : Session α) : Except (Fault α) Unit × Session α :=
  match s.place (.ok 0.0) (.ok 0.0) (.ok 0.0) with
  | (.ok (), t) => t.creep 0.5 0.1
  | (.error f, t) => (.error f, t)

def missions : List String :=
  ["sensor_stop"]

def find (mission : String) :
    Except (Fault α) (Session α → Except (Fault α) Unit × Session α) :=
  if mission = "sensor_stop" then .ok stopAtWall else .error (.noScript mission missions)

end Script

end PlanarDrive
