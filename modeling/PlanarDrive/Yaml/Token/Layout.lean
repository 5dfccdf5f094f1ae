import PlanarDrive.Yaml.Token

/-!
# Indentation and keys

While a text is cut into tokens, the columns of the open levels of indentation are kept, and
for each level of brackets the place where a key may have begun. Whether it is a key shows at
the colon behind it, which has to stand on the same line; only then the token for the key, and
that for a record which begins with it, are put in at their place.
-/

namespace PlanarDrive.Yaml

/-- A place where a key may have begun. -/
structure KeyStart where
  /-- How many tokens stood before it. -/
  place : Nat
  index : Nat
  line : Nat
  column : Nat
  /-- Whether nothing but a key can stand there. -/
  required : Bool
  deriving DecidableEq, Repr

structure Layout where
  cursor : Cursor
  /-- The tokens so far, the latest first, and their number. -/
  past : List Token
  count : Nat
  /-- How many brackets are open. -/
  flow : Nat
  /-- The column of the innermost level of indentation; below zero when there is none. -/
  indent : Int
  outer : List Int
  keys : List (Nat × KeyStart)
  /-- Whether a key may begin at the cursor. -/
  keyAllowed : Bool

namespace Layout

/-- A key has to end on its line and within so many characters. -/
def keyLimit : Nat :=
  1024

def start (text : List Char) : Layout :=
  ⟨.ofText text, [], 0, 0, -1, [], [], true⟩

def inFlow (s : Layout) : Bool :=
  0 < s.flow

def push (s : Layout) (t : Token) : Layout :=
  { s with past := t :: s.past, count := s.count + 1 }

def insert (s : Layout) (place : Nat) (t : Token) : Layout :=
  let later := s.count - place
  { s with past := s.past.take later ++ t :: s.past.drop later, count := s.count + 1 }

def closeTo (column : Int) : List Int → Layout → Layout
  | [], s => s
  | i :: rest, s =>
    if column < s.indent then
      closeTo column rest { s.push .blockEnd with indent := i, outer := rest }
    else s

/-- Closes levels of indentation; inside brackets there are none. -/
def unwind (s : Layout) (column : Int) : Layout :=
  if s.inFlow then s else closeTo column s.outer s

def deepen? (s : Layout) (column : Nat) : Option Layout :=
  if s.indent < column then some { s with indent := column, outer := s.indent :: s.outer }
  else none

def openBlock (s : Layout) (t : Token) : Layout :=
  match s.deepen? s.cursor.column with
  | some s => s.push t
  | none => s

def isStale (s : Layout) (k : KeyStart) : Bool :=
  k.line != s.cursor.line || keyLimit < s.cursor.index - k.index

/-- Forgets the keys that did not show on their line. -/
def dropStale (s : Layout) : Except (Fault Binary64) Layout :=
  if s.keys.any fun k => s.isStale k.2 && k.2.required then .error .malformedText
  else .ok { s with keys := s.keys.filter fun k => !s.isStale k.2 }

def dropKey (s : Layout) : Except (Fault Binary64) Layout :=
  if (s.keys.lookup s.flow).any (·.required) then .error .malformedText
  else .ok { s with keys := s.keys.filter fun k => k.1 != s.flow }

def saveKey (s : Layout) : Except (Fault Binary64) Layout := do
  if s.keyAllowed then
    let s ← s.dropKey
    let c := s.cursor
    let required := !s.inFlow && s.indent == (c.column : Int)
    .ok { s with keys := (s.flow, ⟨s.count, c.index, c.line, c.column, required⟩) :: s.keys }
  else .ok s

def settleKey (s : Layout) (k : KeyStart) : Layout :=
  let s := { s with keys := s.keys.filter fun k => k.1 != s.flow }
  let s := s.insert k.place .key
  match if s.inFlow then none else s.deepen? k.column with
  | some s => s.insert k.place .blockRecord
  | none => s

end Layout

end PlanarDrive.Yaml
