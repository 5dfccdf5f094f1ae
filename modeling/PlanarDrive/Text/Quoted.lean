import PlanarDrive.Text.Printable

/-!
# Quoted text

Text inside a message stands in quotes. A character that is not printable is written by
its code point, so that a message is always one readable line.
-/

namespace PlanarDrive.Text

def hex (width n : Nat) : List Char :=
  let ds := Nat.toDigits 16 n
  List.replicate (width - ds.length) '0' ++ ds

def escapeChar (quote c : Char) : List Char :=
  if c = quote ∨ c = '\\' then ['\\', c]
  else if c = '\n' then ['\\', 'n']
  else if c = '\r' then ['\\', 'r']
  else if c = '\t' then ['\\', 't']
  else if isPrintable c then [c]
  else if c.toNat < 0x100 then '\\' :: 'x' :: hex 2 c.toNat
  else if c.toNat < 0x10000 then '\\' :: 'u' :: hex 4 c.toNat
  else '\\' :: 'U' :: hex 8 c.toNat

/-- Single quotes, unless the text has single quotes and no double ones. -/
def quoteFor (text : List Char) : Char :=
  if '\'' ∈ text ∧ '"' ∉ text then '"' else '\''

def quoted (text : List Char) : List Char :=
  let quote := quoteFor text
  quote :: (text.flatMap (escapeChar quote) ++ [quote])

end PlanarDrive.Text
