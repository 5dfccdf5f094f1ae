import PlanarDrive.Json.Token
import PlanarDrive.Yaml.Cursor

/-!
# Text in quotes

In single quotes only the quote itself is written twice. In double quotes a backslash begins
an escape: a letter, the digits of a character or the end of the line. Lines are joined in
both, and the spaces around their ends are left out.
-/

namespace PlanarDrive.Yaml.Quoted

def letter? : Char → Option Char
  | '0' => some '\x00'
  | 'a' => some '\x07'
  | 'b' => some '\x08'
  | 't' | '\t' => some '\t'
  | 'n' => some '\n'
  | 'v' => some '\x0b'
  | 'f' => some '\x0c'
  | 'r' => some '\r'
  | 'e' => some '\x1b'
  | ' ' => some ' '
  | '"' => some '"'
  | '\\' => some '\\'
  | '/' => some '/'
  | 'N' => some '\x85'
  | '_' => some '\xa0'
  | 'L' => some '\u2028'
  | 'P' => some '\u2029'
  | _ => none

def digits? : Char → Option Nat
  | 'x' => some 2
  | 'u' => some 4
  | 'U' => some 8
  | _ => none

def charOfCode (n : Nat) : Except (Fault Binary64) Char :=
  if 0x80000000 ≤ n then .error .tooLarge
  else if 0x10ffff < n then .error .outOfDomain
  else .ok (Json.charOfUnit n)

/-- The line breaks that stand here, with the blanks of empty lines left out. A document cannot
end inside quotes. -/
def breaks : Nat → List Char → Cursor → Except (Fault Binary64) (List Char × Cursor)
  | 0, past, c => .ok (past.reverse, c)
  | fuel + 1, past, c =>
    if c.atDocumentMark then .error .malformedText
    else
      let c := c.dropWhile isBlank
      match c.lineBreak? with
      | some (b, c) => breaks fuel (b :: past) c
      | none => .ok (past.reverse, c)

/-- The text of an escape after its backslash. The end of a line is joined without a space. -/
def escape (c : Cursor) : Except (Fault Binary64) (List Char × Cursor) :=
  match letter? c.peek, digits? c.peek, c.lineBreak? with
  | some x, _, _ => .ok ([x], c.next)
  | none, some count, _ =>
    let ds := c.next.rest.take count
    if ds.length = count && ds.all fun d => (Json.hexValue? d).isSome then do
      let code := ds.foldl (fun n d => 16 * n + (Json.hexValue? d).getD 0) 0
      .ok ([← charOfCode code], c.next.skip count)
    else .error .malformedText
  | none, none, some (_, c) => breaks c.rest.length [] c
  | none, none, none => .error .malformedText

def gap (c : Cursor) : Except (Fault Binary64) (List Char × Cursor) :=
  let (blanks, c) := c.span isBlank
  match c.lineBreak? with
  | none => .ok (blanks, c)
  | some (b, c) => (breaks c.rest.length [] c).map fun (more, c) => (fold b more, c)

/-- The text up to the closing quote, the latest character of what was read first in `past`. -/
def gather (quote : Char) : Nat → List Char → Cursor →
    Except (Fault Binary64) (List Char × Cursor)
  | 0, _, _ => .error .malformedText
  | fuel + 1, past, c =>
    let double := quote == '"'
    if c.rest.isEmpty then .error .malformedText
    else if c.peek == quote then
      if !double && c.peekAt 1 == quote then gather quote fuel (quote :: past) (c.skip 2)
      else .ok (past.reverse, c.next)
    else if double && c.peek == '\\' then do
      let (text, c) ← escape c.next
      gather quote fuel (text.reverseAux past) c
    else if isBlankOrEnd c.peek then do
      let (text, c) ← gap c
      gather quote fuel (text.reverseAux past) c
    else gather quote fuel (c.peek :: past) c.next

def read (quote : Char) (c : Cursor) : Except (Fault Binary64) (List Char × Cursor) :=
  gather quote (c.rest.length + 1) [] c

end PlanarDrive.Yaml.Quoted
