import PlanarDrive.CommandLine.Run
import PlanarDrive.Fault.Message

/-!
# The program

Runs a mission on the files of the machine. Output goes to the standard output and the
wording of a fault to the standard error.
-/

namespace PlanarDrive.CommandLine

/-- An input or output operation, any failure of which counts as a missing file. -/
def attempt {α : Type} (action : IO α) : IO (Except (Fault Binary64) α) := do
  match ← action.toBaseIO with
  | .ok a => pure (.ok a)
  | .error _ => pure (.error .noSuchFile)

def directoryOf (path : String) : String :=
  "/".intercalate (path.splitOn "/").dropLast

instance : Disk IO where
  read path := attempt (IO.FS.readFile path)
  extend path text := attempt do
    unless (directoryOf path).isEmpty do IO.FS.createDirAll (directoryOf path)
    IO.FS.withFile path .append fun file => file.putStr text
  write path text := attempt (IO.FS.writeFile path text)

end PlanarDrive.CommandLine

def main (args : List String) : IO UInt32 := do
  let report ← PlanarDrive.CommandLine.run (m := IO) args
  IO.print report.output
  match report.exit, report.fault with
  | some code, _ => pure (UInt32.ofNat code)
  | none, some fault =>
    IO.eprintln fault.message
    pure 1
  | none, none => pure 0
