import PlanarDrive.FileTree

/-!
# Where a run keeps its files

A run reads and writes text files and nothing else. It does so on any disk that offers
these three operations: on the files of the machine, or on a tree of files in memory.
-/

namespace PlanarDrive.CommandLine

class Disk (m : Type → Type) where
  read : String → m (Except (Fault Binary64) String)
  /-- Adds text at the end of a file, whose directories are made when they are missing. -/
  extend : String → String → m (Except (Fault Binary64) Unit)
  /-- Writes a file anew in a directory that is there. -/
  write : String → String → m (Except (Fault Binary64) Unit)

instance : Disk (StateM FileTree) where
  read path := fun tree => (tree.read path, tree)
  extend path text := fun tree =>
    match tree.prepare path with
    | (.ok file, tree) => (.ok (), tree.append file text)
    | (.error f, tree) => (.error f, tree)
  write path text := fun tree =>
    match tree.write path text with
    | .ok tree => (.ok (), tree)
    | .error f => (.error f, tree)

end PlanarDrive.CommandLine
