import PlanarDrive.Yaml.Node
import PlanarDrive.Yaml.Token

/-!
# From tokens to nodes

A node is text, a list or a record, in brackets or by indentation, or the name of another node.
A name and a tag may stand before it. Where a node may be left out it is empty text. A text
describes one document, which may have marks around it and directives before it.
-/

namespace PlanarDrive.Yaml

structure Reading where
  rest : List Token
  handles : List (String × String)
  names : List (String × Node)
  boughs : List (Nat × Bough)
  /-- The first place that is free. -/
  places : Nat

/-- A rule of the grammar, which takes tokens and yields a value. -/
abbrev Grammar (α : Type) : Type :=
  StateT Reading (Except (Fault Binary64)) α

/-- Where a node stands, which decides how a list or record may be written. -/
inductive Site
  | brackets
  | block
  /-- Where a list needs no indentation. -/
  | entry
  deriving DecidableEq, Repr

namespace Grammar

def depthLimit : Nat :=
  488

def refuse {α : Type} (f : Fault Binary64) : Grammar α :=
  fun _ => .error f

def peek : Grammar (Option Token) := do
  return (← get).rest.head?

def advance : Grammar Unit :=
  modify fun s => { s with rest := s.rest.tail }

def isBefore (tokens : List Token) : Grammar Bool := do
  return (← peek).any tokens.contains

def accept (t : Token) : Grammar Bool := do
  if ← isBefore [t] then
    advance
    return true
  else return false

def expect (t : Token) : Grammar Unit := do
  if !(← accept t) then refuse .malformedText

def name? : Grammar (Option String) := do
  match ← peek with
  | some (.anchor name) =>
    advance
    return some name
  | _ => return none

def tag? : Grammar (Option String) := do
  match ← peek with
  | some (.tag t) =>
    advance
    match t.handle with
    | none => return some t.suffix
    | some h =>
      match (← get).handles.lookup h with
      | some beginning => return some (beginning ++ t.suffix)
      | none => refuse .malformedText
  | _ => return none

/-- What stands before a node, in either order. -/
def properties : Grammar (Option String × Option String) := do
  match ← name? with
  | some name => return (some name, ← tag?)
  | none =>
    let tag ← tag?
    return (← name?, tag)

def giveName (name : Option String) (n : Node) : Grammar Unit := do
  match name with
  | none => return
  | some name =>
    if ((← get).names.lookup name).isSome then refuse .malformedText
    else modify fun s => { s with names := (name, n) :: s.names }

def resolve (name : String) : Grammar Node := do
  match (← get).names.lookup name with
  | some n => return n
  | none => refuse .malformedText

def newPlace : Grammar Nat := do
  let place := (← get).places
  modify fun s => { s with places := place + 1 }
  return place

def put (place : Nat) (b : Bough) : Grammar Node := do
  modify fun s => { s with boughs := (place, b) :: s.boughs }
  return .link place

/-- Text with its name. It stands at a place if its tag asks for a list or a record. -/
def leaf (name tag : Option String) (isPlain : Bool) (content : String) : Grammar Node := do
  let n ← match Node.ofText tag isPlain content with
    | .text tag content =>
      if tag.isBranch then put (← newPlace) (.text tag content) else pure (.text tag content)
    | n => pure n
  giveName name n
  return n

def boughTag (tag : Option String) (usual : Tag) : Tag :=
  match tag with
  | some name => if name = "!" then usual else .ofName name
  | none => usual

/-- A list whose items are read by `items`. Its name can be used inside of it. -/
def list (name tag : Option String) (items : Grammar (List Node)) : Grammar Node := do
  let place ← newPlace
  giveName name (.link place)
  put place (.list (boughTag tag .list) (← items))

def record (name tag : Option String) (entries : Grammar (List (Node × Node))) : Grammar Node := do
  let place ← newPlace
  giveName name (.link place)
  put place (.record (boughTag tag .record) (← entries))

def unwritten (name tag : Option String) : Grammar Node :=
  if name.isNone && tag.isNone then refuse .malformedText else leaf name tag true ""

def within {α : Type} (depth : Nat) (r : Grammar α) : Grammar α :=
  if depth < depthLimit then r else refuse .tooDeep

mutual

/-- A node inside of `depth` others. The fuel bounds the calls. -/
def node : Nat → Nat → Site → Grammar Node
  | 0, _, _ => refuse .malformedText
  | fuel + 1, depth, site => do
    if let some (.alias name) ← peek then
      advance
      resolve name
    else
      let (name, tag) ← properties
      match ← peek, site with
      | some (.text content isPlain), _ =>
        advance
        leaf name tag isPlain content
      | some .flowList, _ =>
        advance
        list name tag (within depth (flowItems fuel (depth + 1) []))
      | some .flowRecord, _ =>
        advance
        record name tag (within depth (flowEntries fuel (depth + 1) []))
      | some .dash, .entry => list name tag (within depth (bareItems fuel (depth + 1) []))
      | _, .brackets => unwritten name tag
      | some .blockList, _ =>
        advance
        list name tag (within depth (blockItems fuel (depth + 1) []))
      | some .blockRecord, _ =>
        advance
        record name tag (within depth (blockEntries fuel (depth + 1) []))
      | _, _ => unwritten name tag

def slot : Nat → Nat → Site → List Token → Grammar Node
  | 0, _, _, _ => refuse .malformedText
  | fuel + 1, depth, site, ends => do
    if ← isBefore ends then return .empty else node fuel depth site

def valueSlot : Nat → Nat → Site → List Token → Grammar Node
  | 0, _, _, _ => refuse .malformedText
  | fuel + 1, depth, site, ends => do
    if ← accept .value then slot fuel depth site ends else return .empty

def blockItems : Nat → Nat → List Node → Grammar (List Node)
  | 0, _, _ => refuse .malformedText
  | fuel + 1, depth, past => do
    if ← accept .dash then
      let item ← slot fuel depth .block [.dash, .blockEnd]
      blockItems fuel depth (item :: past)
    else
      expect .blockEnd
      return past.reverse

def bareItems : Nat → Nat → List Node → Grammar (List Node)
  | 0, _, _ => refuse .malformedText
  | fuel + 1, depth, past => do
    if ← accept .dash then
      let item ← slot fuel depth .block [.dash, .key, .value, .blockEnd]
      bareItems fuel depth (item :: past)
    else return past.reverse

def blockEntries : Nat → Nat → List (Node × Node) → Grammar (List (Node × Node))
  | 0, _, _ => refuse .malformedText
  | fuel + 1, depth, past => do
    if ← accept .key then
      let key ← slot fuel depth .entry [.key, .value, .blockEnd]
      let value ← valueSlot fuel depth .entry [.key, .value, .blockEnd]
      blockEntries fuel depth ((key, value) :: past)
    else
      expect .blockEnd
      return past.reverse

/-- The items of a list in brackets. A key makes a record of one entry. -/
def flowItems : Nat → Nat → List Node → Grammar (List Node)
  | 0, _, _ => refuse .malformedText
  | fuel + 1, depth, past => do
    if ← accept .flowListEnd then return past.reverse
    else
      if !past.isEmpty then expect .comma
      if ← accept .flowListEnd then return past.reverse
      else if ← accept .key then
        let item ← record none none (within depth (pair fuel (depth + 1)))
        flowItems fuel depth (item :: past)
      else
        let item ← node fuel depth .brackets
        flowItems fuel depth (item :: past)

def pair : Nat → Nat → Grammar (List (Node × Node))
  | 0, _ => refuse .malformedText
  | fuel + 1, depth => do
    let key ← slot fuel depth .brackets [.value, .comma, .flowListEnd]
    let value ← valueSlot fuel depth .brackets [.comma, .flowListEnd]
    return [(key, value)]

/-- The entries of a record in brackets. Without the mark of a key there is no value. -/
def flowEntries : Nat → Nat → List (Node × Node) → Grammar (List (Node × Node))
  | 0, _, _ => refuse .malformedText
  | fuel + 1, depth, past => do
    if ← accept .flowRecordEnd then return past.reverse
    else
      if !past.isEmpty then expect .comma
      if ← accept .flowRecordEnd then return past.reverse
      else if ← accept .key then
        let key ← slot fuel depth .brackets [.value, .comma, .flowRecordEnd]
        let value ← valueSlot fuel depth .brackets [.comma, .flowRecordEnd]
        flowEntries fuel depth ((key, value) :: past)
      else
        let key ← node fuel depth .brackets
        flowEntries fuel depth ((key, .empty) :: past)

end

/-- The directives before a document. Their number bounds the fuel. -/
def directives : Nat → Bool → Grammar Unit
  | 0, _ => refuse .malformedText
  | fuel + 1, hasVersion => do
    match ← peek with
    | some (.directive (.version major)) =>
      if hasVersion || major != 1 then refuse .malformedText
      advance
      directives fuel true
    | some (.directive (.handle name beginning)) =>
      if ((← get).handles.lookup name).isSome then refuse .malformedText
      advance
      modify fun s => { s with handles := (name, beginning) :: s.handles }
      directives fuel hasVersion
    | some (.directive .other) =>
      advance
      directives fuel hasVersion
    | _ => return

def usualHandles : List (String × String) :=
  [("!", "!"), ("!!", Tag.root)]

def documentEnds : Nat → Grammar Unit
  | 0 => refuse .malformedText
  | fuel + 1 => do
    if ← accept .documentEnd then documentEnds fuel
    else if (← peek).isSome then refuse .malformedText

def isMarked (t : Token) : Bool :=
  match t with
  | .directive _ | .documentStart => true
  | _ => false

def document (fuel : Nat) : Grammar Node := do
  let marked := (← peek).any isMarked
  if marked then
    directives fuel false
    expect .documentStart
  modify fun s => { s with handles := s.handles ++ usualHandles }
  let next ← peek
  let root ←
    if marked && next.all fun t => isMarked t || t == .documentEnd then pure .empty
    else node fuel 0 .block
  documentEnds fuel
  return root

end Grammar

/-- The graph that a text describes, unless it describes nothing. Each token leads to a few
calls. -/
def Graph.ofTokens (tokens : List Token) : Except (Fault Binary64) (Option Graph) :=
  if tokens.isEmpty then .ok none
  else do
    let (root, s) ← (Grammar.document (4 * tokens.length + 4)).run ⟨tokens, [], [], [], 0⟩
    .ok (some ⟨root, s.boughs⟩)

end PlanarDrive.Yaml
