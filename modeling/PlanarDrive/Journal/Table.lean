import PlanarDrive.Json.Reader
import PlanarDrive.Journal
import PlanarDrive.Text.Line

/-!
# Journals as tables

A journal is read into a table with one row for each line that holds a record. Nested
records become columns with dotted names, lists stay whole, and lines that hold no JSON
are passed over. A table may be cut to its last rows.
-/

namespace PlanarDrive

namespace Value

def dotted (outer name : String) : String :=
  if outer.isEmpty then name else outer ++ "." ++ name

mutual

def enter (name : String) (row : List (String × Value)) : Value → List (String × Value)
  | record fields => enterAll name row fields
  | v => insertField name v row

def enterAll (outer : String) (row : List (String × Value)) :
    List (String × Value) → List (String × Value)
  | [] => row
  | (n, v) :: rest => enterAll outer (enter (dotted outer n) row v) rest

end

def isRecord : Value → Bool
  | record _ => true
  | _ => false

/-- The row of a record: the plain fields first, then those of nested records in depth. -/
def flatten (fields : List (String × Value)) : List (String × Value) :=
  let nested := enterAll "" [] (fields.filter fun f => f.2.isRecord)
  nested.foldl (fun row f => insertField f.1 f.2 row) (fields.filter fun f => !f.2.isRecord)

/-- The row of a line. Only a record has fields; what is missing leaves an empty row, and any
other value is no row. -/
def toRow : Value → Except (Fault Binary64) (List (String × Value))
  | record fields => .ok (flatten fields)
  | null => .ok []
  | float x => if x.isNaN then .ok [] else .error .wrongKind
  | _ => .error .wrongKind

end Value

namespace Journal

def lines (text : String) : List (List Char) :=
  ((Text.splitLines text.toList).map Text.strip).filter fun l => !l.isEmpty

def value? (line : List Char) : Except (Fault Binary64) (Option Value) :=
  match Json.read line with
  | .ok v => .ok (some v)
  | .error .malformedText => .ok none
  | .error f => .error f

/-- The values on the lines of a journal. A line that is no JSON is passed over. -/
def values (lines : List (List Char)) : Except (Fault Binary64) (List Value) :=
  (lines.mapM value?).map (·.filterMap id)

structure Table where
  columns : List String
  rows : List (List (String × Value))

namespace Table

def empty : Table :=
  ⟨[], []⟩

def columnsOf (rows : List (List (String × Value))) : List String :=
  rows.foldl (fun names row =>
    row.foldl (fun names f => if names.contains f.1 then names else names ++ [f.1]) names) []

def ofValues (values : List Value) : Except (Fault Binary64) Table :=
  (values.mapM Value.toRow).map fun rows => ⟨columnsOf rows, rows⟩

/-- The last rows; a negative count leaves out that many at the beginning. -/
def tail (t : Table) (count : Int) : Table :=
  { t with rows := t.rows.drop (if count < 0 then count.natAbs else t.rows.length - count.toNat) }

/-- The cell of a row in a column; a cell that is missing is null. -/
def cell (row : List (String × Value)) (column : String) : Value :=
  (row.lookup column).getD .null

def standardRows : Int :=
  2000

def ofText (text : String) (count : Int) : Except (Fault Binary64) Table := do
  let values ← values (lines text)
  if values.isEmpty then .ok .empty else .ok ((← ofValues values).tail count)

def load (tree : FileTree) (path : String) (count : Int) : Except (Fault Binary64) Table :=
  if tree.holds (.ofText path) then do ofText (← tree.read path) count else .ok .empty

def row (t : Table) (i : Int) : Except (Fault Binary64) (List (String × Value)) :=
  let n := if i < 0 then i + t.rows.length else i
  if n < 0 then .error .outOfRange
  else (t.rows[n.toNat]?).elim (.error .outOfRange) .ok

def motions (t : Table) (i : Int) : Except (Fault Binary64) (List (Motion Binary64)) := do
  let row ← t.row i
  if t.columns.contains "primitives" then
    (← (cell row "primitives").elements).mapM Motion.ofValue
  else .error (.missingKey "primitives")

end Table

end Journal

end PlanarDrive
