import PlanarDrive.Calendar
import PlanarDrive.Value

/-!
# Documents

A document is a graph. Its lists and records stand at places, and what they hold refers to other
lists and records by their places, so that one list may be part of several others, and also of
itself. All else that a document holds are leaves.
-/

namespace PlanarDrive

inductive Datum
  /-- A value that is a leaf as a whole. -/
  | plain (value : Value)
  | bytes (content : List UInt8)
  | date (value : Date)
  | moment (value : Moment)
  /-- What stands at a place. -/
  | link (place : Nat)
  deriving Inhabited

namespace Datum

/-- What equal keys have in common: a truth value equals the number that it counts as, and a
whole number is equal however it is written. -/
inductive Key
  | null
  | whole (value : Int)
  | fractional (value : Binary64)
  | text (value : String)
  | bytes (content : List UInt8)
  | date (value : Date)
  | moment (value : Moment)
  deriving DecidableEq

def isWhole (x : Binary64) : Bool :=
  !x.isNaN && !x.isInfinite && x.parts.ratio.1 % x.parts.ratio.2 == 0

def key? : Datum → Option Key
  | plain .null => some .null
  | plain (.bool b) => some (.whole (if b then 1 else 0))
  | plain (.int n) => some (.whole n)
  | plain (.float x) => some (if isWhole x then .whole (Value.truncate x) else .fractional x)
  | plain (.text s) => some (.text s)
  | plain (.list _) | plain (.record _) | link _ => none
  | bytes content => some (.bytes content)
  | date value => some (.date value)
  | moment value => some (.moment value)

/-- Puts an entry in: a key that is there already stays, and takes the new value. -/
def insertEntry (key value : Datum) : List (Datum × Datum) → List (Datum × Datum)
  | [] => [(key, value)]
  | (k, v) :: rest =>
    if k.key? = key.key? then (k, value) :: rest else (k, v) :: insertEntry key value rest

def asciiText? (content : List UInt8) : Option (List Char) :=
  if content.all (· < 0x80) then some (content.map fun b => Char.ofNat b.toNat) else none

def toFloat : Datum → Except (Fault Binary64) Binary64
  | plain v => v.toFloat
  | bytes content =>
    ((asciiText? content).bind Decimal.readFloat).elim (.error .notNumeric) .ok
  | _ => .error .wrongKind

def toInt : Datum → Except (Fault Binary64) Int
  | plain v => v.toInt
  | bytes content =>
    ((asciiText? content).bind Decimal.readInt).elim (.error .notNumeric) .ok
  | _ => .error .wrongKind

def isLong : Datum → Bool
  | plain (.int n) => Nat.pow 10 Decimal.digitLimit ≤ n.natAbs
  | _ => false

def quotedBytes (content : List UInt8) : List Char :=
  let text := content.map fun b => Char.ofNat b.toNat
  let quote := Text.quoteFor text
  let escape (c : Char) : List Char :=
    if c.toNat < 0x80 then Text.escapeChar quote c else '\\' :: 'x' :: Text.hex 2 c.toNat
  'b' :: quote :: (text.flatMap escape ++ [quote])

end Datum

inductive Branch
  | list (items : List Datum)
  | record (entries : List (Datum × Datum))
  | set (items : List Datum)
  | pairs (items : List (Datum × Datum))
  deriving Inhabited

namespace Branch

def isEmpty : Branch → Bool
  | list items | set items => items.isEmpty
  | record entries | pairs entries => entries.isEmpty

def quoted (inner : Datum → Except (Fault Binary64) (List Char)) :
    Branch → Except (Fault Binary64) (List Char)
  | list items => do
    .ok ('[' :: Text.join ", " (← items.mapM inner) ++ [']'])
  | pairs items => do
    let pair (p : Datum × Datum) : Except (Fault Binary64) (List Char) := do
      .ok ('(' :: Text.join ", " [← inner p.1, ← inner p.2] ++ [')'])
    .ok ('[' :: Text.join ", " (← items.mapM pair) ++ [']'])
  | record entries => do
    let entry (e : Datum × Datum) : Except (Fault Binary64) (List Char) := do
      .ok (Text.join ": " [← inner e.1, ← inner e.2])
    .ok ('\x7b' :: Text.join ", " (← entries.mapM entry) ++ ['\x7d'])
  | set [] => .ok "set()".toList
  | set items => do
    .ok ('\x7b' :: Text.join ", " (← items.mapM inner) ++ ['\x7d'])

/-- The text of a list or record that stands inside of itself. -/
def ellipsis : Branch → List Char
  | list _ | pairs _ => "[...]".toList
  | record _ | set _ => ['\x7b', '.', '.', '.', '\x7d']

end Branch

structure Document where
  root : Datum
  branches : List (Nat × Branch)
  deriving Inhabited

namespace Document

def ofValue (v : Value) : Document :=
  ⟨.plain v, []⟩

def branch? (d : Document) : Datum → Option Branch
  | .link place => d.branches.lookup place
  | _ => none

def field? (d : Document) (part : Datum) (name : String) :
    Except (Fault Binary64) (Option Datum) :=
  match part, d.branch? part with
  | .plain v, _ => (v.field? name).map (·.map .plain)
  | _, some (.record entries) =>
    .ok ((entries.find? fun e => e.1.key? = some (.text name)).map (·.2))
  | _, _ => .error .noFields

@[simp] theorem field?_plain (d : Document) (v : Value) (name : String) :
    d.field? (.plain v) name = (v.field? name).map (·.map .plain) := rfl

/-- Null, false, zero and everything empty count as nothing. -/
def isNothing (d : Document) (part : Datum) : Bool :=
  match part with
  | .plain v => v.isNothing
  | .bytes content => content.isEmpty
  | part => (d.branch? part).any Branch.isEmpty

/-- The text of a part inside a message. The places around it are in `opened`, and what stands
at one of them again is left out. The fuel bounds the nesting. -/
def quoted (d : Document) : Nat → List Nat → Datum → Except (Fault Binary64) (List Char)
  | 0, _, _ => .error .tooDeep
  | fuel + 1, opened, part =>
    match part with
    | .plain v => if Datum.isLong part then .error .notNumeric else .ok v.quoted
    | .bytes content => .ok (Datum.quotedBytes content)
    | .date value => .ok value.quoted
    | .moment value => .ok value.quoted
    | .link place =>
      match d.branches.lookup place with
      | none => .ok []
      | some b =>
        if opened.contains place then .ok b.ellipsis
        else b.quoted (quoted d fuel (place :: opened))

def shown (d : Document) (part : Datum) : Except (Fault Binary64) String :=
  match part with
  | .plain (.text s) => .ok s
  | .date value => .ok (String.ofList value.text)
  | .moment value => .ok (String.ofList value.text)
  | part => (d.quoted (d.branches.length + 1) [] part).map String.ofList

/-- A list that holds itself is not shown again in itself. -/
example : (shown ⟨.link 0, [(0, .list [.plain (.int 1), .link 0])]⟩ (.link 0)).toOption =
    some "[1, [...]]" := by
  decide +kernel

end Document

end PlanarDrive
