import PlanarDrive.Yaml.Leaf
import PlanarDrive.Yaml.Node

/-!
# From nodes to documents

Each node becomes the part of a document that its tag asks for. A record may take over entries
of others: its own entries count before those, and of several others the first counts most.
Nodes are visited from the root outwards, so that of several faults the one nearest to the root
is found.
-/

namespace PlanarDrive.Yaml.Graph

/-- The entries of a record without those that lend others. A key that could stand for its
record is text. -/
def ownEntries (g : Graph) (entries : List (Node × Node)) : List (Node × Node) :=
  (entries.filter fun e => g.tag? e.1 != some .merge).map fun e =>
    match e.1 with
    | .text .standIn content => (.text .text content, e.2)
    | _ => e

mutual

/-- All entries of a record, those that it takes over first. A record that takes over its own
entries, at one of the places `around`, adds none to them. -/
def allEntries (g : Graph) : Nat → List Nat → List (Node × Node) →
    Except (Fault Binary64) (List (Node × Node))
  | 0, _, _ => .error .tooDeep
  | fuel + 1, around, entries => do
    let lenders := entries.filter fun e => g.tag? e.1 == some .merge
    let lent ← lenders.mapM fun e => lentEntries g fuel around e.2
    .ok (lent.flatten ++ g.ownEntries entries)

def lentEntries (g : Graph) : Nat → List Nat → Node →
    Except (Fault Binary64) (List (Node × Node))
  | 0, _, _ => .error .tooDeep
  | fuel + 1, around, n =>
    match n, g.bough? n with
    | .link place, some (.record _ entries) => do
      if around.contains place then .ok (g.ownEntries entries)
      else allEntries g fuel (place :: around) entries
    | _, some (.list _ items) => do
      let lent ← items.mapM fun item =>
        if (g.entries? item).isSome then lentEntries g fuel around item else .error .unfitTag
      .ok lent.reverse.flatten
    | _, _ => .error .unfitTag

end

/-- The entries of the record at a place. Each record that is taken over, and each list of them,
leads to three calls at most, which bounds the fuel. -/
def entriesAt (g : Graph) (place : Nat) (entries : List (Node × Node)) :
    Except (Fault Binary64) (List (Node × Node)) :=
  g.allEntries (3 * g.boughs.length + 3) [place] entries

/-- The text that stands for a node where text is needed: a record has an entry for it. -/
def standIn (g : Graph) : Nat → Node → Except (Fault Binary64) String
  | _, .text _ content => .ok content
  | 0, _ => .error .tooDeep
  | fuel + 1, n =>
    match g.bough? n with
    | some (.text _ content) => .ok content
    | some (.record _ entries) =>
      match entries.find? fun e => g.tag? e.1 == some .standIn with
      | some e => standIn g fuel e.2
      | none => .error .unfitTag
    | _ => .error .unfitTag

def part (g : Graph) (n : Node) : Except (Fault Binary64) Datum :=
  match n, g.bough? n with
  | .text tag content, _ => tag.leaf content
  | .link place, some b =>
    if b.tag.isBranch then .ok (.link place)
    else (g.standIn g.boughs.length n).bind b.tag.leaf
  | _, none => .error .unfitTag

def entry (g : Graph) (e : Node × Node) : Except (Fault Binary64) (Datum × Datum) := do
  let key ← g.part e.1
  if key.key?.isNone then .error .unfitTag
  else .ok (key, ← g.part e.2)

def pair (g : Graph) (n : Node) : Except (Fault Binary64) (Datum × Datum) := do
  match g.entries? n with
  | some [e] => .ok (← g.part e.1, ← g.part e.2)
  | _ => .error .unfitTag

def settleEntries (entries : List (Datum × Datum)) : List (Datum × Datum) :=
  entries.foldl (fun settled e => Datum.insertEntry e.1 e.2 settled) []

def content (g : Graph) (place : Nat) : Except (Fault Binary64) (Branch × List Datum) := do
  match g.boughs.lookup place with
  | some (.list .list items) =>
    let parts ← items.mapM g.part
    .ok (.list parts, parts)
  | some (.list .pairs items) =>
    let parts ← items.mapM g.pair
    .ok (.pairs parts, parts.flatMap fun p => [p.1, p.2])
  | some (.record .record entries) =>
    let parts ← (← g.entriesAt place entries).mapM g.entry
    .ok (.record (settleEntries parts), parts.map (·.2))
  | some (.record .set entries) =>
    let parts ← (← g.entriesAt place entries).mapM g.entry
    .ok (.set ((settleEntries parts).map (·.1)), parts.map (·.2))
  | _ => .error .unfitTag

def reach (places : List Nat) (part : Datum) : List Nat :=
  match part with
  | .link place => if places.contains place then places else places ++ [place]
  | _ => places

/-- Fills the places from the `done`-th on, in the order in which they were reached. There are
as many as the graph has, which bounds the fuel. -/
def fill (g : Graph) : Nat → Nat → List Nat → List (Nat × Branch) →
    Except (Fault Binary64) (List (Nat × Branch))
  | 0, _, _, past => .ok past
  | fuel + 1, done, places, past =>
    match places[done]? with
    | none => .ok past
    | some place => do
      let (branch, parts) ← g.content place
      fill g fuel (done + 1) (parts.foldl reach places) ((place, branch) :: past)

def document (g : Graph) : Except (Fault Binary64) Document := do
  let root ← g.part g.root
  .ok ⟨root, ← g.fill (g.boughs.length + 1) 0 (reach [] root) []⟩

end PlanarDrive.Yaml.Graph
