/-!
# Bytes written as text

Four characters of an alphabet of 64 stand for three bytes. What is no such character is
passed over, and an equals sign stands for a missing character at the end.
-/

namespace PlanarDrive.Text.Base64

def value? (c : Char) : Option Nat :=
  if 'A' ≤ c ∧ c ≤ 'Z' then some (c.toNat - 'A'.toNat)
  else if 'a' ≤ c ∧ c ≤ 'z' then some (c.toNat - 'a'.toNat + 26)
  else if '0' ≤ c ∧ c ≤ '9' then some (c.toNat - '0'.toNat + 52)
  else if c = '+' then some 62
  else if c = '/' then some 63
  else none

/-- The bytes of a text. Of a group of four, `held` characters were read with the value `bits`,
and `padding` equals signs in a row after them; a group that breaks off is refused. -/
def bytes (past : List UInt8) (held bits padding : Nat) : List Char → Option (List UInt8)
  | [] => if held = 0 then some past.reverse else none
  | c :: rest =>
    match value? c with
    | some v =>
      let bits := bits * 64 + v
      if held = 0 then bytes past 1 v 0 rest
      else
        let left := 6 - 2 * held
        bytes (UInt8.ofNat (bits / 2 ^ left) :: past) ((held + 1) % 4) (bits % 2 ^ left) 0 rest
    | none =>
      if c ≠ '=' ∨ held < 2 then bytes past held bits padding rest
      else if 4 ≤ held + padding + 1 then some past.reverse
      else bytes past held bits (padding + 1) rest

def decode (text : List Char) : Option (List UInt8) :=
  bytes [] 0 0 0 text

example : decode "aGk=".toList = some [104, 105] := by decide +kernel

example : decode "aGk".toList = none := by decide +kernel

end PlanarDrive.Text.Base64
