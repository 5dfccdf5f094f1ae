import PlanarDrive.Decimal.Layout
import PlanarDrive.Decimal.Reader
import PlanarDrive.Fault
import PlanarDrive.Text.Quoted

/-!
# Values read from data files

Missions, settings and logs are read into values: trees of records and lists whose leaves
are numbers, truth values and text. A record keeps its fields in the order of their first
appearance. A value that is used as something it is not is refused with the cause.
-/

namespace PlanarDrive

inductive Value
  | null
  | bool (value : Bool)
  | int (value : Int)
  | float (value : Binary64)
  | text (value : String)
  | list (items : List Value)
  | record (fields : List (String × Value))
  deriving Inhabited

namespace Value

/-- Puts a field in: a known name keeps its place and takes the new value. -/
def insertField (name : String) (value : Value) :
    List (String × Value) → List (String × Value)
  | [] => [(name, value)]
  | (n, v) :: rest =>
    if n = name then (n, value) :: rest else (n, v) :: insertField name value rest

@[simp] theorem lookup_insertField_self (name : String) (value : Value)
    (fields : List (String × Value)) :
    (insertField name value fields).lookup name = some value := by
  induction fields with
  | nil => simp [insertField]
  | cons f rest ih =>
    obtain ⟨n, v⟩ := f
    by_cases h : n = name
    · simp [insertField, h]
    · have h' : (name == n) = false := beq_false_of_ne fun e => h e.symm
      rw [insertField, if_neg h, List.lookup_cons, h']
      exact ih

/-- A record of these fields, in order; of fields with one name the last value counts. -/
def ofFields (fields : List (String × Value)) : Value :=
  record (fields.foldl (fun r f => insertField f.1 f.2 r) [])

def field? (value : Value) (name : String) : Except (Fault Binary64) (Option Value) :=
  match value with
  | record fields => .ok (fields.lookup name)
  | _ => .error .noFields

def field (value : Value) (name : String) : Except (Fault Binary64) Value :=
  match value with
  | record fields => (fields.lookup name).elim (.error (.missingKey name)) .ok
  | _ => .error .wrongKind

/-- What a value holds one by one: items, characters or the names of fields. -/
def elements : Value → Except (Fault Binary64) (List Value)
  | list items => .ok items
  | text s => .ok (s.toList.map fun c => text c.toString)
  | record fields => .ok (fields.map fun f => text f.1)
  | _ => .error .wrongKind

/-- Null, false, zero and everything empty count as nothing. -/
def isNothing : Value → Bool
  | null => true
  | bool b => !b
  | int n => n == 0
  | float x => x == 0.0
  | text s => s.isEmpty
  | list items => items.isEmpty
  | record fields => fields.isEmpty

def toFloat : Value → Except (Fault Binary64) Binary64
  | float x => .ok x
  | int n => if (Binary64.ofInt n).isInfinite then .error .tooLarge else .ok (Binary64.ofInt n)
  | bool b => .ok (if b then 1.0 else 0.0)
  | text s => (Decimal.readFloat s.toList).elim (.error .notNumeric) .ok
  | _ => .error .wrongKind

def truncate (x : Binary64) : Int :=
  let p := x.parts
  let n : Int := (p.ratio.1 / p.ratio.2 : Nat)
  if p.negative then -n else n

def toInt : Value → Except (Fault Binary64) Int
  | float x =>
    if x.isNaN then .error .notANumber
    else if x.isInfinite then .error .tooLarge
    else .ok (truncate x)
  | int n => .ok n
  | bool b => .ok (if b then 1 else 0)
  | text s => (Decimal.readInt s.toList).elim (.error .notNumeric) .ok
  | _ => .error .wrongKind

def intText (n : Int) : List Char :=
  if n < 0 then '-' :: Decimal.digits n.natAbs else Decimal.digits n.natAbs

mutual

def quoted : Value → List Char
  | null => "None".toList
  | bool b => if b then "True".toList else "False".toList
  | int n => intText n
  | float x => Decimal.exact x
  | text s => Text.quoted s.toList
  | list items => '[' :: quotedItems items ++ [']']
  | record fields => '\x7b' :: quotedFields fields ++ ['\x7d']

def quotedItems : List Value → List Char
  | [] => []
  | [v] => v.quoted
  | v :: rest => v.quoted ++ (',' :: ' ' :: quotedItems rest)

def quotedFields : List (String × Value) → List Char
  | [] => []
  | [(n, v)] => Text.quoted n.toList ++ (':' :: ' ' :: v.quoted)
  | (n, v) :: rest =>
    Text.quoted n.toList ++ (':' :: ' ' :: v.quoted ++ (',' :: ' ' :: quotedFields rest))

end

def shown : Value → String
  | text s => s
  | v => String.ofList v.quoted

end Value

end PlanarDrive
