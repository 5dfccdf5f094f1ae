import PlanarDrive.Binary64
import PlanarDrive.Fault
import PlanarDrive.FilePath

/-!
# Files in memory

A file tree holds the texts of files and the places of directories. Paths start at its root,
which is a directory, as is everything around it. A path is walked name by name, and every
name on the way has to be a directory that is there, also before two dots. What is refused may
have changed the tree already: directories that were made stay.
-/

namespace PlanarDrive

/-- The names from the root of a tree to a file or directory. Two dots lead out of the root, and
a slash stands for the top of the file system. -/
abbrev Place :=
  List String

structure FileTree where
  files : List (Place × String)
  directories : List Place
  deriving DecidableEq, Repr

namespace FileTree

inductive Entity
  | directory (place : Place)
  | file (place : Place) (text : String)
  deriving DecidableEq, Repr

def empty : FileTree :=
  ⟨[], []⟩

variable (tree : FileTree)

def text? (place : Place) : Option String :=
  tree.files.lookup place

def isFile (place : Place) : Bool :=
  (tree.text? place).isSome

/-- Whether a place is a directory: one of the tree, the root, or one that the root lies in. -/
def isDirectory (place : Place) : Bool :=
  place.all (fun n => n == ".." || n == "/") || tree.directories.contains place

def outer (place : Place) : Place :=
  match place.getLast? with
  | none | some ".." => place ++ [".."]
  | some "/" => place
  | some _ => place.dropLast

def step (place : Place) (name : String) : Except (Fault Binary64) Place :=
  if name = "." then .ok place
  else if name = ".." then .ok (outer place)
  else if FilePath.isNameTooLong name then .error .nameTooLong
  else if tree.isDirectory (place ++ [name]) then .ok (place ++ [name])
  else if tree.isFile (place ++ [name]) then .error .notDirectory
  else .error .noSuchFile

def start (path : FilePath) : Except (Fault Binary64) Place :=
  if path.hasNull then .error .embeddedNull
  else if path.isEmpty then .error .noSuchFile
  else if path.isTooLong then .error .nameTooLong
  else .ok (if path.rooted then ["/"] else [])

def approach (path : FilePath) : Except (Fault Binary64) Place := do
  path.names.dropLast.foldlM tree.step (← start path)

def isDots (name : String) : Bool :=
  name == "." || name == ".."

def find (path : FilePath) : Except (Fault Binary64) Entity := do
  let around ← tree.approach path
  match path.names.getLast? with
  | none => .ok (.directory around)
  | some name =>
    match tree.text? (around ++ [name]) with
    | some text => if path.closed then .error .notDirectory else .ok (.file (around ++ [name]) text)
    | none => (tree.step around name).map .directory

def read (path : String) : Except (Fault Binary64) String := do
  match ← tree.find (.ofText path) with
  | .file _ text => .ok text
  | .directory _ => .error .isDirectory

def holds (path : FilePath) : Bool :=
  tree.find path matches .ok _

def isDirectoryAt (path : FilePath) : Bool :=
  tree.find path matches .ok (.directory _)

def setText (place : Place) (text : String) : List (Place × String) → List (Place × String)
  | [] => [(place, text)]
  | (p, t) :: rest => if p = place then (p, text) :: rest else (p, t) :: setText place text rest

/-- Replaces the text at a place by `change`, from the empty text when there is no file. -/
def update (place : Place) (change : String → String) : FileTree :=
  { tree with files := setText place (change ((tree.text? place).getD "")) tree.files }

def append (place : Place) (text : String) : FileTree :=
  tree.update place (· ++ text)

/-- The place of a file that is opened for writing. It need not be there, but the directory
around it has to be. -/
def target (path : FilePath) : Except (Fault Binary64) Place := do
  let around ← tree.approach path
  match path.names.getLast? with
  | none => .error .isDirectory
  | some name =>
    if isDots name || path.closed then .error .isDirectory
    else if FilePath.isNameTooLong name then .error .nameTooLong
    else if tree.isDirectory (around ++ [name]) then .error .isDirectory
    else .ok (around ++ [name])

def openFile (path : FilePath) : Except (Fault Binary64) (Place × FileTree) :=
  (tree.target path).map fun place => (place, tree.append place "")

def write (path text : String) : Except (Fault Binary64) FileTree :=
  (tree.target (.ofText path)).map fun place => tree.update place fun _ => text

def makeDirectory (path : FilePath) : Except (Fault Binary64) FileTree := do
  let around ← tree.approach path
  match path.names.getLast? with
  | none => .error .fileExists
  | some name =>
    let place := around ++ [name]
    if isDots name then .error .fileExists
    else if FilePath.isNameTooLong name then .error .nameTooLong
    else if tree.isDirectory place || tree.isFile place then .error .fileExists
    else .ok { tree with directories := tree.directories ++ [place] }

def ensureDirectory (path : FilePath) : Except (Fault Binary64) Unit × FileTree :=
  match tree.makeDirectory path with
  | .ok tree => (.ok (), tree)
  | .error f => (if tree.isDirectoryAt path then .ok () else .error f, tree)

/-- Makes a directory and those above it that are missing. The names are given from the last to
the first. That a file stands in the way of an upper directory shows at the next name. -/
def makeDirectories (rooted : Bool) : List String → FileTree →
    Except (Fault Binary64) Unit × FileTree
  | [], tree => (.ok (), tree)
  | name :: upper, tree =>
    let path : FilePath := ⟨rooted, (name :: upper).reverse, false⟩
    if upper.isEmpty || tree.holds path.directory then tree.ensureDirectory path
    else
      match makeDirectories rooted upper tree with
      | (.ok (), tree) | (.error .fileExists, tree) =>
        if name = "." then (.ok (), tree) else tree.ensureDirectory path
      | (.error f, tree) => (.error f, tree)

def prepare (path : String) : Except (Fault Binary64) Place × FileTree :=
  let path := FilePath.ofText path
  match makeDirectories path.rooted path.directory.names.reverse tree with
  | (.error f, tree) => (.error f, tree)
  | (.ok (), tree) =>
    match tree.openFile path with
    | .ok (place, tree) => (.ok place, tree)
    | .error f => (.error f, tree)

@[simp] theorem lookup_setText_self (place : Place) (text : String)
    (files : List (Place × String)) : (setText place text files).lookup place = some text := by
  induction files with
  | nil => simp [setText]
  | cons f rest ih =>
    obtain ⟨p, t⟩ := f
    by_cases h : p = place
    · simp [setText, h]
    · have h' : (place == p) = false := beq_false_of_ne fun e => h e.symm
      rw [setText, if_neg h, List.lookup_cons, h']
      exact ih

@[simp] theorem text?_update_self (place : Place) (change : String → String) :
    (tree.update place change).text? place = some (change ((tree.text? place).getD "")) :=
  lookup_setText_self ..

end FileTree

end PlanarDrive
