import PlanarDrive.Mission
import PlanarDrive.Proofs.Fallible

/-!
# Missions as records and back

Poses, goals, obstacles, commands, worlds and missions are each written as a record and read by a
function of its own. What is written is read as the same value, whole lists of obstacles and
commands included. A record may leave parts out and give numbers in other forms. Once it has been
read and written again, reading and writing change it no more.
-/

namespace PlanarDrive

namespace World

/-- Every place in the list of obstacles is taken by a shape. -/
def Whole {α : Type} (w : World α) : Prop :=
  ∀ o ∈ w.obstacles, o ≠ .missing

instance (w : World Binary64) : Decidable w.Whole :=
  inferInstanceAs (Decidable (∀ o ∈ w.obstacles, o ≠ .missing))

end World

theorem Pose.ofValue_toValue (p : Pose Binary64) : ofValue p.toValue = .ok p :=
  rfl

theorem Goal.ofValue_toValue (g : Goal Binary64) : ofValue g.toValue = .ok g :=
  rfl

theorem Command.ofValue_toValue (c : Command Binary64) : ofValue c.toValue = .ok c :=
  rfl

namespace Obstacle

theorem ofValue_toValue {o : Obstacle Binary64} (h : o ≠ .missing) : ofValue o.toValue = .ok o := by
  cases o with
  | circle x y radius => rfl
  | rectangle x y width height => rfl
  | missing => exact absurd rfl h

/-- Only shapes are read. -/
theorem ne_missing_of_ofValue {v : Value} {o : Obstacle Binary64} (h : ofValue v = .ok o) :
    o ≠ .missing := by
  unfold ofValue at h
  obtain ⟨kind, -, h⟩ := bind_ok h
  split at h
  · obtain ⟨x, -, h⟩ := bind_ok h
    obtain ⟨y, -, h⟩ := bind_ok h
    obtain ⟨radius, -, h⟩ := bind_ok h
    cases h
    simp
  · obtain ⟨x, -, h⟩ := bind_ok h
    obtain ⟨y, -, h⟩ := bind_ok h
    obtain ⟨width, -, h⟩ := bind_ok h
    obtain ⟨height, -, h⟩ := bind_ok h
    cases h
    simp
  · cases h

end Obstacle

namespace World

theorem ofValue_toValue {w : World Binary64} (h : w.Whole) : ofValue w.toValue = .ok w := by
  have hobstacles : (w.obstacles.map Obstacle.toValue).mapM Obstacle.ofValue = .ok w.obstacles :=
    mapM_map_eq_ok fun o ho => Obstacle.ofValue_toValue (h o ho)
  show (do
    let start ← Pose.ofValue w.start.toValue
    let goal ← Goal.ofValue w.goal.toValue
    let obstacles ← (w.obstacles.map Obstacle.toValue).mapM Obstacle.ofValue
    .ok ⟨start, goal, obstacles⟩ : Except (Fault Binary64) (World Binary64)) = .ok w
  rw [Pose.ofValue_toValue, Goal.ofValue_toValue, hobstacles]
  rfl

theorem whole_of_ofValue {v : Value} {w : World Binary64} (h : ofValue v = .ok w) : w.Whole := by
  unfold ofValue at h
  obtain ⟨_, -, h⟩ := bind_ok h
  obtain ⟨start, -, h⟩ := bind_ok h
  obtain ⟨_, -, h⟩ := bind_ok h
  obtain ⟨goal, -, h⟩ := bind_ok h
  obtain ⟨_, -, h⟩ := bind_ok h
  obtain ⟨items, -, h⟩ := bind_ok h
  obtain ⟨obstacles, hobstacles, h⟩ := bind_ok h
  cases h
  intro o ho
  obtain ⟨_, -, hread⟩ := exists_mem_of_mem_mapM hobstacles ho
  exact Obstacle.ne_missing_of_ofValue hread

end World

namespace Mission

theorem ofValue_toValue {m : Mission} (h : m.world.Whole) : ofValue m.toValue = .ok m := by
  have hprogram : (m.program.map Command.toValue).mapM Command.ofValue = .ok m.program :=
    mapM_map_eq_ok fun c _ => c.ofValue_toValue
  show (do
    let world ← World.ofValue m.world.toValue
    let program ← (m.program.map Command.toValue).mapM Command.ofValue
    .ok ⟨m.id, m.title, m.briefing, world, program⟩ : Except (Fault Binary64) Mission) = .ok m
  rw [World.ofValue_toValue h, hprogram]
  rfl

theorem whole_of_ofValue {v : Value} {m : Mission} (h : ofValue v = .ok m) : m.world.Whole := by
  unfold ofValue at h
  obtain ⟨id, -, h⟩ := bind_ok h
  obtain ⟨_, -, h⟩ := bind_ok h
  obtain ⟨_, -, h⟩ := bind_ok h
  obtain ⟨world, hworld, h⟩ := bind_ok h
  obtain ⟨_, -, h⟩ := bind_ok h
  obtain ⟨_, -, h⟩ := bind_ok h
  obtain ⟨program, -, h⟩ := bind_ok h
  cases h
  exact World.whole_of_ofValue hworld

end Mission

/-- A world of discs and rectangles that is written as a record and read again is the same world,
and so is a mission, whatever its texts and its commands are. What is read has only discs and
rectangles in it. So a record that has been read and written once is read as the same, and written
as the same from then on, whatever it left out and whatever forms its numbers had. -/
theorem descriptions_round_trip :
    (∀ w : World Binary64, w.Whole → World.ofValue w.toValue = .ok w) ∧
      (∀ m : Mission, m.world.Whole → Mission.ofValue m.toValue = .ok m) ∧
      (∀ v w, World.ofValue v = .ok w → w.Whole ∧ World.ofValue w.toValue = .ok w) ∧
      ∀ v m, Mission.ofValue v = .ok m → m.world.Whole ∧ Mission.ofValue m.toValue = .ok m := by
  refine ⟨fun w hw => World.ofValue_toValue hw, fun m hm => Mission.ofValue_toValue hm,
    fun v w h => ?_, fun v m h => ?_⟩
  · have hw := World.whole_of_ofValue h
    exact ⟨hw, World.ofValue_toValue hw⟩
  · have hm := Mission.whole_of_ofValue h
    exact ⟨hm, Mission.ofValue_toValue hm⟩

def alley : Mission where
  id := "alley"
  title := "Down the alley"
  briefing := ""
  world := ⟨⟨-1.0, 0.5, 0.0⟩, ⟨3.0, 0.5, 0.25⟩,
    [.circle 1.0 2.0 0.5, .rectangle 1.0 (-1.0) 4.0 0.2]⟩
  program := [⟨"move_forward", 4.0⟩, ⟨"wave", -0.0⟩]

/-- A record that leaves most of a mission out and gives numbers as text and truth values. -/
def sketch : Value :=
  .record [("id", .int 7), ("world", .record [("start", .record [("theta", .text " 1.5 ")]),
    ("obstacles", .list [.record [("radius", .text "5e-1"), ("y", .bool true), ("x", .int 2),
      ("type", .text "circle")]])]),
    ("program", .list [.record [("op", .null), ("arg", .bool false)]])]

theorem descriptions_round_trip_alley :
    alley.world.Whole ∧ World.ofValue alley.world.toValue = .ok alley.world ∧
      Mission.ofValue alley.toValue = .ok alley ∧
      ∃ m, Mission.ofValue sketch = .ok m ∧ m.title = "7" ∧ m.world.start = ⟨0.0, 0.0, 1.5⟩ ∧
        m.world.obstacles = [.circle 2.0 1.0 0.5] ∧ m.program = [⟨"None", 0.0⟩] ∧
        World.ofValue m.world.toValue = .ok m.world ∧ Mission.ofValue m.toValue = .ok m := by
  have halley : alley.world.Whole := by decide
  have hsketch : Mission.ofValue sketch =
      .ok ⟨"7", "7", "", ⟨⟨0.0, 0.0, 1.5⟩, .origin, [.circle 2.0 1.0 0.5]⟩, [⟨"None", 0.0⟩]⟩ := by
    rfl
  obtain ⟨hworld, hmission, -, hread⟩ := descriptions_round_trip
  obtain ⟨hwhole, hagain⟩ := hread sketch _ hsketch
  exact ⟨halley, hworld _ halley, hmission _ halley, _, hsketch, rfl, rfl, rfl, rfl,
    hworld _ hwhole, hagain⟩

end PlanarDrive
