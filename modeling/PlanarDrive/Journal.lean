import PlanarDrive.FileTree
import PlanarDrive.Goal
import PlanarDrive.Json.Writer
import PlanarDrive.Motion.Record

/-!
# The journal of runs

A journal is a file to which records are only ever added, one on a line. A line holds its
record in full and no line break, so lines and records correspond. A journal that has been
closed takes nothing more.
-/

namespace PlanarDrive

structure Journal where
  file : Place
  isOpen : Bool
  deriving DecidableEq, Repr

namespace Journal

def line (record : Value) : String :=
  String.ofList (Json.write record ++ ['\n'])

def verdictRecord (v : Verdict Binary64) : Value :=
  .record [("success", .bool v.success), ("final_distance", .float v.finalDistance)]

def runRecord (mission : String) (motions : List (Motion Binary64))
    (samples : List (Sample Binary64)) (verdict : Verdict Binary64) (metrics : Value) :
    Except (Fault Binary64) Value :=
  (Trajectory.last samples).map fun last =>
    .record [
      ("mission_id", .text mission),
      ("outcome", verdictRecord verdict),
      ("final", last.toValue),
      ("primitives", .list (motions.map Motion.toValue)),
      ("samples", .list (samples.map Sample.toValue)),
      ("metrics", if metrics.isNothing then .record [] else metrics)]

/-- Opens a journal: the file and the directories above it are there from then on. -/
def start (path : String) (tree : FileTree) : Except (Fault Binary64) Journal × FileTree :=
  let (file, tree) := tree.prepare path
  (file.map (⟨·, true⟩), tree)

def log (j : Journal) (record : Value) (tree : FileTree) : FileTree :=
  if j.isOpen then tree.append j.file (line record) else tree

def close (j : Journal) : Journal :=
  { j with isOpen := false }

@[simp] theorem log_close (j : Journal) (record : Value) (tree : FileTree) :
    j.close.log record tree = tree :=
  rfl

@[simp] theorem close_close (j : Journal) : j.close.close = j.close :=
  rfl

end Journal

end PlanarDrive
