import PlanarDrive.Yaml.Block
import PlanarDrive.Yaml.Plain
import PlanarDrive.Yaml.Quoted
import PlanarDrive.Yaml.Token.Layout

/-!
# Cutting YAML text into tokens

Each step passes over spaces, line ends and comments, closes the levels of indentation that
have ended, and takes the token that begins at the cursor. Every step but the last takes at
least one character.
-/

namespace PlanarDrive.Yaml.Layout

/-- Goes on to the next token. Behind a line end a key may begin, outside of brackets. -/
def toNext : Nat → Layout → Layout
  | 0, s => s
  | fuel + 1, s =>
    let c := s.cursor.dropWhile (· == ' ')
    let c := if c.peek == '#' then c.restOfLine.2 else c
    match c.lineBreak? with
    | none => { s with cursor := c }
    | some (_, c) => toNext fuel { s with cursor := c, keyAllowed := s.keyAllowed || !s.inFlow }

def pastByteMark (s : Layout) : Layout :=
  if s.cursor.index == 0 && s.cursor.peek == '\ufeff' then { s with cursor := s.cursor.next }
  else s

def take (s : Layout) (t : Token) (size : Nat) : Layout :=
  { s.push t with cursor := s.cursor.skip size }

def takeDocumentMark (s : Layout) (t : Token) : Except (Fault Binary64) Layout := do
  let s ← (s.unwind (-1)).dropKey
  .ok { s.take t 3 with keyAllowed := false }

def takeDirective (s : Layout) : Except (Fault Binary64) Layout := do
  let s ← (s.unwind (-1)).dropKey
  let (d, c) ← Label.directive s.cursor
  .ok { s.push (.directive d) with cursor := c, keyAllowed := false }

def openFlow (s : Layout) (t : Token) : Except (Fault Binary64) Layout := do
  let s ← s.saveKey
  .ok { s.take t 1 with flow := s.flow + 1, keyAllowed := true }

def closeFlow (s : Layout) (t : Token) : Except (Fault Binary64) Layout := do
  let s ← s.dropKey
  .ok { s.take t 1 with flow := s.flow - 1, keyAllowed := false }

def takeComma (s : Layout) : Except (Fault Binary64) Layout := do
  let s ← { s with keyAllowed := true }.dropKey
  .ok (s.take .comma 1)

/-- The dash of an item. Outside of brackets it begins a list where a key may begin. -/
def takeDash (s : Layout) : Except (Fault Binary64) Layout := do
  if !s.inFlow && !s.keyAllowed then .error .malformedText
  else
    let s := if s.inFlow then s else s.openBlock .blockList
    let s ← { s with keyAllowed := true }.dropKey
    .ok (s.take .dash 1)

def takeKey (s : Layout) : Except (Fault Binary64) Layout := do
  if !s.inFlow && !s.keyAllowed then .error .malformedText
  else
    let s := if s.inFlow then s else s.openBlock .blockRecord
    let s ← { s with keyAllowed := !s.inFlow }.dropKey
    .ok (s.take .key 1)

/-- The colon before a value. It shows that what may have been a key is one. -/
def takeValue (s : Layout) : Except (Fault Binary64) Layout := do
  match s.keys.lookup s.flow with
  | some k => .ok ({ s.settleKey k with keyAllowed := false }.take .value 1)
  | none =>
    if !s.inFlow && !s.keyAllowed then .error .malformedText
    else
      let s := if s.inFlow then s else s.openBlock .blockRecord
      let s ← { s with keyAllowed := !s.inFlow }.dropKey
      .ok (s.take .value 1)

def takeLabel (s : Layout) (read : Cursor → Except (Fault Binary64) (Token × Cursor)) :
    Except (Fault Binary64) Layout := do
  let s ← s.saveKey
  let (t, c) ← read s.cursor
  .ok { s.push t with cursor := c, keyAllowed := false }

def takeQuoted (s : Layout) (quote : Char) : Except (Fault Binary64) Layout :=
  s.takeLabel fun c => (Quoted.read quote c.next).map fun r =>
    (.text (String.ofList r.1) false, r.2)

def takeBlock (s : Layout) (folded : Bool) : Except (Fault Binary64) Layout := do
  let s ← { s with keyAllowed := true }.dropKey
  let (text, c) ← Block.read folded (max 1 (s.indent + 1)).toNat s.cursor.next
  .ok { s.push (.text (String.ofList text) false) with cursor := c }

def takePlain (s : Layout) : Except (Fault Binary64) Layout := do
  let s ← s.saveKey
  let (text, g) := Plain.read s.inFlow (s.indent + 1) s.cursor
  .ok { s.push (.text (String.ofList text) true) with cursor := g.cursor, keyAllowed := g.isLong }

def beginsPlain (inFlow : Bool) (c after : Char) : Bool :=
  !(isBlankOrEnd c || isFlowMark c || c.toNat == 0x60 || "-?:#&*!|>'\"%@".contains c) ||
    (!isBlankOrEnd after && (c == '-' || (!inFlow && (c == '?' || c == ':'))))

def takeToken (s : Layout) : Except (Fault Binary64) Layout :=
  let c := s.cursor
  let x := c.peek
  let standsAlone := isBlankOrEnd (c.peekAt 1)
  if x == '%' && c.column == 0 then s.takeDirective
  else if c.column == 0 && c.atTriple '-' then s.takeDocumentMark .documentStart
  else if c.column == 0 && c.atTriple '.' then s.takeDocumentMark .documentEnd
  else if x == '[' then s.openFlow .flowList
  else if x == '\x7b' then s.openFlow .flowRecord
  else if x == ']' then s.closeFlow .flowListEnd
  else if x == '\x7d' then s.closeFlow .flowRecordEnd
  else if x == ',' then s.takeComma
  else if x == '-' && standsAlone then s.takeDash
  else if x == '?' && (s.inFlow || standsAlone) then s.takeKey
  else if x == ':' && (s.inFlow || standsAlone) then s.takeValue
  else if x == '*' then s.takeLabel fun c => (Label.name c).map fun r => (.alias r.1, r.2)
  else if x == '&' then s.takeLabel fun c => (Label.name c).map fun r => (.anchor r.1, r.2)
  else if x == '!' then s.takeLabel fun c => (Label.tag c).map fun r => (.tag r.1, r.2)
  else if x == '|' && !s.inFlow then s.takeBlock false
  else if x == '>' && !s.inFlow then s.takeBlock true
  else if x == '\'' || x == '"' then s.takeQuoted x
  else if beginsPlain s.inFlow x (c.peekAt 1) then s.takePlain
  else .error .malformedText

def takeAll : Nat → Layout → Except (Fault Binary64) (List Token)
  | 0, _ => .error .malformedText
  | fuel + 1, s => do
    let s := toNext (s.cursor.rest.length + 1) s.pastByteMark
    let s ← s.dropStale
    let s := s.unwind s.cursor.column
    if s.cursor.rest.isEmpty then .ok ((← (s.unwind (-1)).dropKey).past.reverse)
    else takeAll fuel (← s.takeToken)

end PlanarDrive.Yaml.Layout

namespace PlanarDrive.Yaml.Token

def all (text : List Char) : Except (Fault Binary64) (List Token) :=
  Layout.takeAll (text.length + 1) (.start text)

end PlanarDrive.Yaml.Token
