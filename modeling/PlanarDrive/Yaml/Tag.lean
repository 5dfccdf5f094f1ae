import PlanarDrive.Yaml.Moment
import PlanarDrive.Yaml.Number

/-!
# Tags

A tag tells what the content of a node is. It is given by its full name, or follows from how
plain text is written: as one of the words for truth values, as a number, as a date. Text that
is written like nothing else is text.
-/

namespace PlanarDrive.Yaml

inductive Tag
  | null
  | bool
  | int
  | float
  | bytes
  | moment
  | text
  | list
  | record
  | set
  | pairs
  /-- A key whose value lends its entries to the record. -/
  | merge
  /-- A key whose value stands for its record where text is needed. -/
  | standIn
  | unknown
  deriving DecidableEq, Repr

namespace Tag

def root : String :=
  "tag:yaml.org,2002:"

def known : List (String × Tag) :=
  [("null", null), ("bool", bool), ("int", int), ("float", float), ("binary", bytes),
    ("timestamp", moment), ("str", text), ("seq", list), ("map", record), ("set", set),
    ("omap", pairs), ("pairs", pairs), ("merge", merge), ("value", standIn)]

def ofName (name : String) : Tag :=
  ((known.find? fun t => root ++ t.1 == name).map (·.2)).getD unknown

def truth? (word : String) : Option Bool :=
  if ["yes", "true", "on"].contains word then some true
  else if ["no", "false", "off"].contains word then some false
  else none

/-- The writings of a word in small letters, in capitals, and with a capital in front. -/
def writings (word : String) : List String :=
  [word, word.toUpper, word.capitalize]

def isTruth (text : String) : Bool :=
  (truth? text.toLower).isSome && (writings text.toLower).contains text

def isNull (text : String) : Bool :=
  text == "~" || (writings "null").contains text

def dropLineEnd (text : List Char) : List Char :=
  if text.getLast? = some '\n' then text.dropLast else text

/-- The tag of plain text: the first kind that it is written like. -/
def ofPlain (content : String) : Tag :=
  let text := dropLineEnd content.toList
  let line := String.ofList text
  if isTruth line then bool
  else if Number.isFloat text then float
  else if Number.isInt text then int
  else if line = "<<" then merge
  else if content.isEmpty || isNull line then null
  else if WrittenMoment.isWritten text then moment
  else if line = "=" then standIn
  else if ["!", "&", "*"].contains line then unknown
  else .text

def isBranch (tag : Tag) : Bool :=
  [list, record, set, pairs].contains tag

example : ["Off", "0o7", "1_0.5", "1e3", "~", "2024-1-2", "<<"].map ofPlain =
    [bool, .text, float, .text, null, .text, merge] := by decide +kernel

end Tag

end PlanarDrive.Yaml
