import PlanarDrive.Value

/-!
# Writing JSON

A value is written on one line without blanks. Every character outside the printable ASCII
range is escaped, so no line break can stand in the text.
-/

namespace PlanarDrive.Json

/-- The code units of a character: one, or a pair above the basic plane. -/
def codeUnits (c : Char) : List Nat :=
  if c.toNat < 0x10000 then [c.toNat]
  else [0xd800 + (c.toNat - 0x10000) / 0x400, 0xdc00 + (c.toNat - 0x10000) % 0x400]

def writeChar (c : Char) : List Char :=
  if c = '"' then ['\\', '"']
  else if c = '\\' then ['\\', '\\']
  else if c = '\n' then ['\\', 'n']
  else if c = '\r' then ['\\', 'r']
  else if c = '\t' then ['\\', 't']
  else if c = '\x0c' then ['\\', 'f']
  else if c = '\x08' then ['\\', 'b']
  else if ' ' ≤ c ∧ c ≤ '~' then [c]
  else (codeUnits c).flatMap fun n => '\\' :: 'u' :: Text.hex 4 n

def writeText (text : List Char) : List Char :=
  '"' :: (text.flatMap writeChar ++ ['"'])

def writeFloat (x : Binary64) : List Char :=
  if x.isNaN then "NaN".toList
  else if x.isInfinite then (if x.isNegative then "-Infinity" else "Infinity").toList
  else Decimal.exact x

mutual

def write : Value → List Char
  | .null => "null".toList
  | .bool b => if b then "true".toList else "false".toList
  | .int n => Value.intText n
  | .float x => writeFloat x
  | .text s => writeText s.toList
  | .list items => '[' :: (writeItems items ++ [']'])
  | .record fields => '\x7b' :: (writeFields fields ++ ['\x7d'])

def writeItems : List Value → List Char
  | [] => []
  | [v] => write v
  | v :: rest => write v ++ ',' :: writeItems rest

def writeFields : List (String × Value) → List Char
  | [] => []
  | [(n, v)] => writeText n.toList ++ ':' :: write v
  | (n, v) :: rest => writeText n.toList ++ ':' :: (write v ++ ',' :: writeFields rest)

end

end PlanarDrive.Json
