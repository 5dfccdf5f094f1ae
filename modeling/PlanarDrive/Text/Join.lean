/-!
# Joined text

Texts with a separator between them, and numbers that are filled up with zeros.
-/

namespace PlanarDrive.Text

def join (separator : String) (parts : List (List Char)) : List Char :=
  separator.toList.intercalate parts

def padZeros (width n : Nat) : List Char :=
  let ds := Nat.toDigits 10 n
  List.replicate (width - ds.length) '0' ++ ds

end PlanarDrive.Text
