/-!
# Written paths

A path is written as names between slashes. Slashes next to each other count as one. A path
that begins with a slash starts at the top of the file system, and one that ends with a slash
can only stand for a directory.
-/

namespace PlanarDrive

/-- The names along a path and where it starts and ends. -/
structure FilePath where
  rooted : Bool
  names : List String
  closed : Bool
  deriving DecidableEq, Repr

namespace FilePath

def ofText (text : String) : FilePath :=
  let names := text.splitOn "/"
  ⟨names.head? == some "" && 1 < names.length, names.filter (· ≠ ""),
    names.getLast? == some ""⟩

def isEmpty (path : FilePath) : Bool :=
  path.names.isEmpty && !path.rooted

/-- The path of the directory that a path leads into. After the last slash of a closed path
there is no further name. -/
def directory (path : FilePath) : FilePath :=
  if path.closed then { path with closed := false }
  else { path with names := path.names.dropLast }

def size (path : FilePath) : Nat :=
  path.names.foldr (fun n bytes => n.utf8ByteSize + bytes) 0 + (path.names.length - 1) +
    path.rooted.toNat + path.closed.toNat

def sizeLimit : Nat :=
  4096

def nameLimit : Nat :=
  255

def isNameTooLong (name : String) : Bool :=
  nameLimit < name.utf8ByteSize

def isTooLong (path : FilePath) : Bool :=
  sizeLimit ≤ path.size

def hasNull (path : FilePath) : Bool :=
  path.names.any fun n => n.contains '\x00'

end FilePath

end PlanarDrive
