import PlanarDrive.Yaml.Tag

/-!
# Nodes

A text describes a graph of nodes. Every node has a tag and holds text or other nodes; lists and
records stand at places, so that a name can refer to one, also from inside of it.
-/

namespace PlanarDrive.Yaml

inductive Node
  | text (tag : Tag) (content : String)
  /-- What stands at a place. -/
  | link (place : Nat)
  deriving DecidableEq, Repr

/-- Text under the tag that is written before it. Without one it is text if it is in quotes;
else, and under the tag `!`, its writing decides. -/
def Node.ofText (tag : Option String) (isPlain : Bool) (content : String) : Node :=
  match tag with
  | some name => text (if name = "!" then .ofPlain content else .ofName name) content
  | none => text (if isPlain then .ofPlain content else .text) content

def Node.empty : Node :=
  .ofText none true ""

example : Node.empty = .text .null "" := by decide +kernel

inductive Bough
  | list (tag : Tag) (items : List Node)
  | record (tag : Tag) (entries : List (Node × Node))
  /-- Text whose tag asks for a list or a record. -/
  | text (tag : Tag) (content : String)
  deriving DecidableEq, Repr

def Bough.tag : Bough → Tag
  | list t _ | record t _ | text t _ => t

structure Graph where
  root : Node
  boughs : List (Nat × Bough)
  deriving DecidableEq, Repr

namespace Graph

def bough? (g : Graph) : Node → Option Bough
  | .link place => g.boughs.lookup place
  | .text .. => none

def tag? (g : Graph) (n : Node) : Option Tag :=
  match n with
  | .text tag _ => some tag
  | n => (g.bough? n).map Bough.tag

/-- The entries of a node that is a record, whatever its tag. -/
def entries? (g : Graph) (n : Node) : Option (List (Node × Node)) :=
  match g.bough? n with
  | some (.record _ entries) => some entries
  | _ => none

end Graph

end PlanarDrive.Yaml
