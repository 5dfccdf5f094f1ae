import PlanarDrive.Yaml.Cursor

/-!
# Plain text

Text without quotes goes on over spaces and over lines that are indented deeper than what it
belongs to. It ends before a comment, before the colon of a key and before the mark of a
document; inside brackets it ends before every mark.
-/

namespace PlanarDrive.Yaml.Plain

def endsBefore (inFlow : Bool) (c after : Char) : Bool :=
  isBlankOrEnd c || (c == ':' && (isBlankOrEnd after || (inFlow && isFlowMark after))) ||
    (inFlow && (isFlowMark c || c == '?'))

def piece (inFlow : Bool) (past : List Char) : List Char → List Char
  | [] => past.reverse
  | c :: rest =>
    if endsBefore inFlow c (rest.headD '\x00') then past.reverse
    else piece inFlow (c :: past) rest

/-- The line breaks that stand here, with the spaces of empty lines left out. There are none
when a document ends here. -/
def breaks : Nat → List Char → Cursor → Option (List Char) × Cursor
  | 0, past, c => (some past.reverse, c)
  | fuel + 1, past, c =>
    if c.peek == ' ' then breaks fuel past c.next
    else
      match c.lineBreak? with
      | none => (some past.reverse, c)
      | some (b, c) => if c.atDocumentMark then (none, c) else breaks fuel (b :: past) c

/-- What stands between two pieces: the text that it counts as, whether it reaches over the end
of a line, and the cursor behind it. -/
structure Gap where
  text : List Char
  isLong : Bool
  cursor : Cursor

def gap (c : Cursor) : Gap :=
  let (spaces, c) := c.span (· == ' ')
  match c.lineBreak? with
  | none => ⟨spaces, false, c⟩
  | some (b, c) =>
    if c.atDocumentMark then ⟨[], true, c⟩
    else
      match breaks c.rest.length [] c with
      | (none, c) => ⟨[], true, c⟩
      | (some more, c) => ⟨fold b more, true, c⟩

/-- Plain text from a gap on. The text before it is in `past`, the latest character first. Lines
have to reach the column `indent`. -/
def gather (inFlow : Bool) (indent : Int) : Nat → List Char → Gap → List Char × Gap
  | 0, past, g => (past.reverse, g)
  | fuel + 1, past, g =>
    if g.cursor.peek == '#' then (past.reverse, g)
    else
      match piece inFlow [] g.cursor.rest with
      | [] => (past.reverse, g)
      | text =>
        let past := text.reverseAux (g.text.reverseAux past)
        let g := gap (g.cursor.skip text.length)
        if g.text.isEmpty || (!inFlow && (g.cursor.column : Int) < indent) then (past.reverse, g)
        else gather inFlow indent fuel past g

def read (inFlow : Bool) (indent : Int) (c : Cursor) : List Char × Gap :=
  gather inFlow indent (c.rest.length + 1) [] ⟨[], false, c⟩

end PlanarDrive.Yaml.Plain
