import PlanarDrive.Yaml.Label

/-!
# Tokens of YAML text

A text is cut into the texts and labels of its nodes and the marks between them. Where a
level of indentation begins and ends, and where a key begins, has a token as well, although
nothing may be written there.
-/

namespace PlanarDrive.Yaml

inductive Token
  | directive (content : Label.Directive)
  | documentStart
  | documentEnd
  /-- A list or a record by indentation begins. -/
  | blockList
  | blockRecord
  /-- A level of indentation ends. -/
  | blockEnd
  | flowList
  | flowListEnd
  | flowRecord
  | flowRecordEnd
  /-- The dash before an item. -/
  | dash
  | comma
  | key
  | value
  | alias (name : String)
  | anchor (name : String)
  | tag (content : Label.WrittenTag)
  /-- Text with or without quotes. -/
  | text (content : String) (plain : Bool)
  deriving DecidableEq, Repr

end PlanarDrive.Yaml
