import PlanarDrive.Json.Token
import PlanarDrive.Yaml.Cursor

/-!
# Labels of nodes

A node may carry a name, by which others refer to it, and a tag that tells what it is. A tag
is written in full between angle brackets, or behind a handle that stands for its beginning.
Directives before a document give handles their meaning.
-/

namespace PlanarDrive.Yaml.Label

def isWordChar (c : Char) : Bool :=
  c.isAlphanum || c == '-' || c == '_'

def isTagChar (c : Char) : Bool :=
  c.isAlphanum || "-;/?:@&=+$,_.!~*'()[]%".contains c

def endsName (c : Char) : Bool :=
  isBlankOrEnd c || "?:,]%@".contains c || c == '\x7d' || c.toNat == 0x60

def name (c : Cursor) : Except (Fault Binary64) (String × Cursor) :=
  let (text, c) := c.next.span isWordChar
  if text.isEmpty || !endsName c.peek then .error .malformedText
  else .ok (String.ofList text, c)

/-- The bytes that stand here as pairs of digits behind percent signs. -/
def escapedBytes : Nat → List UInt8 → Cursor → Except (Fault Binary64) (List UInt8 × Cursor)
  | 0, past, c => .ok (past.reverse, c)
  | fuel + 1, past, c =>
    if c.peek != '%' then .ok (past.reverse, c)
    else
      match Json.hexValue? (c.peekAt 1), Json.hexValue? (c.peekAt 2) with
      | some a, some b => escapedBytes fuel (UInt8.ofNat (16 * a + b) :: past) (c.skip 3)
      | _, _ => .error .malformedText

/-- The characters of a tag from here on, the latest in front of `past`. -/
def tagText : Nat → List Char → Cursor → Except (Fault Binary64) (List Char × Cursor)
  | 0, past, c => .ok (past.reverse, c)
  | fuel + 1, past, c =>
    if c.peek == '%' then do
      let (bytes, c) ← escapedBytes c.rest.length [] c
      match String.fromUTF8? ⟨bytes.toArray⟩ with
      | some s => tagText fuel (s.toList.reverseAux past) c
      | none => .error .malformedText
    else if isTagChar c.peek then tagText fuel (c.peek :: past) c.next
    else .ok (past.reverse, c)

def tagPart (c : Cursor) : Except (Fault Binary64) (String × Cursor) := do
  let (text, c) ← tagText c.rest.length [] c
  if text.isEmpty then .error .malformedText else .ok (String.ofList text, c)

/-- A handle: a word between exclamation marks, or the first mark alone before a space. -/
def handle (c : Cursor) : Except (Fault Binary64) (String × Cursor) :=
  if c.peek != '!' then .error .malformedText
  else if c.peekAt 1 == ' ' then .ok ("!", c.next)
  else
    let (word, d) := c.next.span isWordChar
    if d.peek == '!' then .ok (String.ofList ('!' :: word ++ ['!']), d.next)
    else .error .malformedText

/-- Refuses a part that is not followed by a space or the end of the line. -/
def endPart {α : Type} (r : α × Cursor) : Except (Fault Binary64) (α × Cursor) :=
  if r.2.peek == ' ' || isBreakOrEnd r.2.peek then .ok r else .error .malformedText

structure WrittenTag where
  handle : Option String
  suffix : String
  deriving DecidableEq, Repr

def tag (c : Cursor) : Except (Fault Binary64) (WrittenTag × Cursor) := do
  let (t, c) ←
    if c.peekAt 1 == '<' then do
      let (text, c) ← tagPart (c.skip 2)
      if c.peek == '>' then .ok (⟨none, text⟩, c.next) else .error .malformedText
    else if isBlankOrEnd (c.peekAt 1) then .ok (⟨none, "!"⟩, c.next)
    else do
      let word := c.next.rest.takeWhile fun x => x != ' ' && !isBreakOrEnd x
      let (h, c) ← if word.contains '!' then handle c else .ok ("!", c.next)
      let (text, c) ← tagPart c
      .ok (⟨some h, text⟩, c)
  endPart (t, c)

inductive Directive
  | version (major : Nat)
  | handle (name beginning : String)
  | other
  deriving DecidableEq, Repr

def number (c : Cursor) : Except (Fault Binary64) (Nat × Cursor) :=
  let (ds, c) := c.span Decimal.isDigit
  if ds.isEmpty then .error .malformedText else .ok (Decimal.ofDigits ds, c)

def directiveBody (name : String) (c : Cursor) : Except (Fault Binary64) (Directive × Cursor) :=
  let spaces (c : Cursor) : Cursor := c.dropWhile (· == ' ')
  if name = "YAML" then do
    let (major, c) ← number (spaces c)
    if c.peek != '.' then .error .malformedText
    else do
      let (_, c) ← endPart (← number c.next)
      .ok (.version major, c)
  else if name = "TAG" then do
    let (h, c) ← handle (spaces c)
    if c.peek != ' ' then .error .malformedText
    else do
      let (text, c) ← endPart (← tagPart (spaces c))
      .ok (.handle h text, c)
  else .ok (.other, c.restOfLine.2)

def directive (c : Cursor) : Except (Fault Binary64) (Directive × Cursor) := do
  let (name, c) ← endPart (c.next.span isWordChar)
  let (d, c) ← directiveBody (String.ofList name) c
  let body := c.dropWhile (· == ' ')
  let body := if body.peek == '#' then body.restOfLine.2 else body
  if name.isEmpty || !isBreakOrEnd body.peek then .error .malformedText
  else .ok (d, body)

end PlanarDrive.Yaml.Label
