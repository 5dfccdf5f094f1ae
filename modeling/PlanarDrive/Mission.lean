import PlanarDrive.Command
import PlanarDrive.Json.Reader
import PlanarDrive.World.Record

/-!
# Missions

A mission is a world with a title, a briefing and, when a fixed plan solves it, that plan.
It is stored as a record; all but its name may be left out.
-/

namespace PlanarDrive

structure Mission where
  id : String
  title : String
  briefing : String
  world : World Binary64
  program : List (Command Binary64)
  deriving DecidableEq, Repr

namespace Command

def ofValue (v : Value) : Except (Fault Binary64) (Command Binary64) := do
  let op := (← v.field "op").shown
  let arg ← v.needFloat "arg"
  .ok ⟨op, arg⟩

def toValue (c : Command Binary64) : Value :=
  .record [("op", .text c.op), ("arg", .float c.arg)]

/-- The commands of a plan; all of them are read before any is obeyed. -/
def listOfValue (v : Value) : Except (Fault Binary64) (List (Command Binary64)) := do
  (← v.elements).mapM ofValue

end Command

namespace Mission

def ofValue (v : Value) : Except (Fault Binary64) Mission := do
  let id ← v.field "id"
  let title := ((← v.field? "title").getD id).shown
  let world ← World.ofValue ((← v.field? "world").getD (.record []))
  let briefing := ((← v.field? "briefing").getD (.text "")).shown
  let program ← Command.listOfValue ((← v.field? "program").getD (.list []))
  .ok ⟨id.shown, title, briefing, world, program⟩

def toValue (m : Mission) : Value :=
  .record [("id", .text m.id), ("title", .text m.title), ("briefing", .text m.briefing),
    ("world", m.world.toValue), ("program", .list (m.program.map Command.toValue))]

def read (text : String) : Except (Fault Binary64) Mission := do
  ofValue (← Json.read text.toList)

end Mission

end PlanarDrive
