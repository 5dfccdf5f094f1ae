import PlanarDrive.Binary64
import PlanarDrive.Fault
import PlanarDrive.Yaml.Cursor

/-!
# Blocks of text

A block holds the lines below its header that are indented deeper than what it belongs to. It
keeps the ends of its lines, or joins the lines that begin with no blank. What is kept at its
end, and how deep it is indented, may stand in the header.
-/

namespace PlanarDrive.Yaml.Block

/-- What is kept at the end of a block: one line end, none, or all of them. -/
inductive Tail
  | clip
  | strip
  | keep
  deriving DecidableEq, Repr

structure Header where
  tail : Tail
  /-- How much deeper the block is indented than what it belongs to. -/
  depth : Option Nat
  deriving DecidableEq, Repr

def tail? : Char → Option Tail
  | '+' => some .keep
  | '-' => some .strip
  | _ => none

def depth? (c : Char) : Option Nat :=
  if '0' ≤ c ∧ c ≤ '9' then some (c.toNat - '0'.toNat) else none

def signs (c : Cursor) : Header × Cursor :=
  match tail? c.peek, depth? c.peek with
  | some t, _ =>
    match depth? c.next.peek with
    | some d => (⟨t, some d⟩, c.skip 2)
    | none => (⟨t, none⟩, c.next)
  | none, some d =>
    match tail? c.next.peek with
    | some t => (⟨t, some d⟩, c.skip 2)
    | none => (⟨.clip, some d⟩, c.next)
  | none, none => (⟨.clip, none⟩, c)

def lineEnd (c : Cursor) : List Char × Cursor :=
  match c.lineBreak? with
  | some (b, c) => ([b], c)
  | none => ([], c)

/-- The header of a block, which takes the rest of its line; a comment may stand there. -/
def header (c : Cursor) : Except (Fault Binary64) (Header × Cursor) :=
  let (h, c) := signs c
  let body := c.dropWhile (· == ' ')
  let body' := if body.peek == '#' then body.restOfLine.2 else body
  if h.depth = some 0 ∨ (c.peek ≠ ' ' ∧ !isBreakOrEnd c.peek) ∨ !isBreakOrEnd body'.peek then
    .error .malformedText
  else .ok (h, (lineEnd body').2)

def indentTo (indent : Nat) : Nat → Cursor → Cursor
  | 0, c => c
  | fuel + 1, c =>
    if c.column < indent ∧ c.peek = ' ' then indentTo indent fuel c.next else c

def emptyLines (indent : Nat) : Nat → List Char → Cursor → List Char × Cursor
  | 0, past, c => (past.reverse, c)
  | fuel + 1, past, c =>
    let c := indentTo indent indent c
    match c.lineBreak? with
    | some (b, c) => emptyLines indent fuel (b :: past) c
    | none => (past.reverse, c)

/-- The blank lines at the beginning of a block, and the deepest column in them, which is that
of the first line with text. -/
def firstLines : Nat → List Char → Nat → Cursor → List Char × Nat × Cursor
  | 0, past, deepest, c => (past.reverse, deepest, c)
  | fuel + 1, past, deepest, c =>
    if c.peek = ' ' then firstLines fuel past (max deepest c.next.column) c.next
    else
      match c.lineBreak? with
      | some (b, c) => firstLines fuel (b :: past) deepest c
      | none => (past.reverse, deepest, c)

def hasLine (indent : Nat) (c : Cursor) : Bool :=
  c.column == indent && c.peek != '\x00'

/-- The lines of a block from the cursor on; the line ends before it are in `lead` and what was
read in `past`, the latest character first. -/
def gather (folded : Bool) (tail : Tail) (indent : Nat) : Nat → List Char → List Char →
    Cursor → List Char × Cursor
  | 0, past, _, c => (past.reverse, c)
  | fuel + 1, past, lead, c =>
    let opensFlat := !isBlank c.peek
    let (text, c) := c.restOfLine
    let past := text.reverseAux (lead.reverseAux past)
    let (close, c) := lineEnd c
    let (lead, c) := emptyLines indent c.rest.length [] c
    if hasLine indent c then
      let joined := folded && close == ['\n'] && opensFlat && !isBlank c.peek
      let close := if !joined then close else if lead.isEmpty then [' '] else []
      gather folded tail indent fuel (close.reverseAux past) lead c
    else
      match tail with
      | .strip => (past.reverse, c)
      | .clip => ((close.reverseAux past).reverse, c)
      | .keep => ((lead.reverseAux (close.reverseAux past)).reverse, c)

def read (folded : Bool) (least : Nat) (c : Cursor) :
    Except (Fault Binary64) (List Char × Cursor) := do
  let (h, c) ← header c
  let (lead, indent, c) := match h.depth with
    | none =>
      let (lead, deepest, c) := firstLines c.rest.length [] 0 c
      (lead, max least deepest, c)
    | some d =>
      let indent := least + d - 1
      let (lead, c) := emptyLines indent c.rest.length [] c
      (lead, indent, c)
  if hasLine indent c then
    .ok (gather folded h.tail indent (c.rest.length + 1) [] lead c)
  else .ok (if h.tail = .keep then lead else [], c)

end PlanarDrive.Yaml.Block
