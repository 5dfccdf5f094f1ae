/-!
# Columns of text

A column pads its cells with spaces to a width, on the left or on the right. A cell that
is too wide is not cut.
-/

namespace PlanarDrive.Text

def padRight (width : Nat) (cell : List Char) : List Char :=
  cell ++ List.replicate (width - cell.length) ' '

def padLeft (width : Nat) (cell : List Char) : List Char :=
  List.replicate (width - cell.length) ' ' ++ cell

end PlanarDrive.Text
