/-!
# Places in a YAML text

A cursor stands before what is left of a text and knows its line and column. The null
character, which no text holds, is read at the end. The mark of byte order takes no column.
-/

namespace PlanarDrive.Yaml

/-- The characters that end a line, after all usual line ends have become line feeds. -/
def isBreak (c : Char) : Bool :=
  c == '\n' || c == '\x85' || c == '\u2028' || c == '\u2029'

def isBreakOrEnd (c : Char) : Bool :=
  c == '\x00' || isBreak c

def isBlank (c : Char) : Bool :=
  c == ' ' || c == '\t'

def isBlankOrEnd (c : Char) : Bool :=
  isBlank c || isBreakOrEnd c

def isFlowMark (c : Char) : Bool :=
  [',', '[', ']', '\x7b', '\x7d'].contains c

structure Cursor where
  rest : List Char
  index : Nat
  line : Nat
  column : Nat
  deriving DecidableEq, Repr

namespace Cursor

def ofText (text : List Char) : Cursor :=
  ⟨text, 0, 0, 0⟩

def peekAt (c : Cursor) (n : Nat) : Char :=
  (c.rest[n]?).getD '\x00'

def peek (c : Cursor) : Char :=
  c.rest.headD '\x00'

def next (c : Cursor) : Cursor :=
  match c.rest with
  | [] => c
  | x :: rest =>
    if isBreak x then ⟨rest, c.index + 1, c.line + 1, 0⟩
    else ⟨rest, c.index + 1, c.line, if x = '\ufeff' then c.column else c.column + 1⟩

def skip : Nat → Cursor → Cursor
  | 0, c => c
  | n + 1, c => skip n c.next

def span (c : Cursor) (kind : Char → Bool) : List Char × Cursor :=
  let text := c.rest.takeWhile kind
  (text, c.skip text.length)

def dropWhile (c : Cursor) (kind : Char → Bool) : Cursor :=
  (c.span kind).2

def restOfLine (c : Cursor) : List Char × Cursor :=
  c.span fun x => !isBreakOrEnd x

/-- The line break that stands here; the usual ones count as line feeds. -/
def lineBreak? (c : Cursor) : Option (Char × Cursor) :=
  if !isBreak c.peek then none
  else some (if c.peek == '\x85' then '\n' else c.peek, c.next)

def atTriple (c : Cursor) (mark : Char) : Bool :=
  c.peek == mark && c.peekAt 1 == mark && c.peekAt 2 == mark && isBlankOrEnd (c.peekAt 3)

def atDocumentMark (c : Cursor) : Bool :=
  c.atTriple '-' || c.atTriple '.'

end Cursor

/-- Lines that are joined: one line break is a space, and of several the first is left out. -/
def fold (first : Char) (more : List Char) : List Char :=
  if first ≠ '\n' then first :: more
  else if more.isEmpty then [' ']
  else more

end PlanarDrive.Yaml
