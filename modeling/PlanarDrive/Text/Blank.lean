/-!
# Blank characters

The characters that separate words are the white space of Unicode and the four separators
among the control characters. A line is stripped of them at both ends; around a number
the separators do not count as blank.
-/

namespace PlanarDrive.Text

def isSeparator (c : Char) : Bool :=
  0x1c ≤ c.toNat && c.toNat ≤ 0x1f

def isBlank (c : Char) : Bool :=
  let n := c.toNat
  (0x9 ≤ n && n ≤ 0xd) || isSeparator c || n == 0x20 || n == 0x85 || n == 0xa0 || n == 0x1680 ||
    (0x2000 ≤ n && n ≤ 0x200a) || n == 0x2028 || n == 0x2029 || n == 0x202f || n == 0x205f ||
    n == 0x3000

def trim (kind : Char → Bool) (text : List Char) : List Char :=
  ((text.dropWhile kind).reverse.dropWhile kind).reverse

def strip (text : List Char) : List Char :=
  trim isBlank text

end PlanarDrive.Text
