import PlanarDrive.Binary64.Arithmetic
import PlanarDrive.Text.Blank
import PlanarDrive.Text.Digit

/-!
# Reading numbers

A number in free text may stand between blanks, use the digits of any script, group
its digits with single underscores, and name infinity and not-a-number. The value read is
the floating point number nearest to the one written.
-/

namespace PlanarDrive.Decimal

def ofDigits (ds : List Char) : Nat :=
  ds.foldl (fun n c => 10 * n + (c.toNat - '0'.toNat)) 0

/-- The number nearest to `coefficient * 10 ^ exponent`; far out of range it is infinite or
zero, so that no huge power is computed. -/
def nearestTo (coefficient : Nat) (exponent : Int) : Binary64 :=
  let top := exponent + (coefficient.log2 / 3 : Int)
  if coefficient = 0 then 0.0
  else if top < -400 then 0.0
  else if 400 < exponent then Binary64.infinity
  else OfScientific.ofScientific coefficient (exponent < 0) exponent.natAbs

structure Spelling where
  negative : Bool
  whole : List Char
  fraction : List Char
  exponent : Int
  deriving DecidableEq, Repr

def Spelling.value (s : Spelling) : Binary64 :=
  let magnitude := nearestTo (ofDigits (s.whole ++ s.fraction)) (s.exponent - s.fraction.length)
  if s.negative then -magnitude else magnitude

def isDigit (c : Char) : Bool :=
  '0' ≤ c && c ≤ '9'

def takeSign : List Char → Bool × List Char
  | '-' :: rest => (true, rest)
  | '+' :: rest => (false, rest)
  | rest => (false, rest)

def isMargin (c : Char) : Bool :=
  Text.isBlank c && !Text.isSeparator c

/-- Digits of every script become ASCII ones; blanks at both ends are dropped. -/
def normalize (text : List Char) : List Char :=
  (Text.trim isMargin text).map fun c =>
    (Text.digitValue? c).elim c fun d => Char.ofNat ('0'.toNat + d)

/-- Removes underscores, each of which has to stand between two digits. -/
def dropGrouping : List Char → Option (List Char)
  | [] => some []
  | '_' :: _ => none
  | c :: '_' :: d :: rest =>
    if isDigit c && isDigit d then (dropGrouping (d :: rest)).map (c :: ·) else none
  | c :: rest => (dropGrouping rest).map (c :: ·)

def readExponent : List Char → Option Int
  | [] => some 0
  | c :: rest =>
    let (negative, ds) := takeSign rest
    if (c == 'e' || c == 'E') && !ds.isEmpty && ds.all isDigit then
      some (if negative then -(ofDigits ds : Int) else ofDigits ds)
    else none

def readSpelling (negative : Bool) (text : List Char) : Option Spelling :=
  let whole := text.takeWhile isDigit
  let rest := text.dropWhile isDigit
  let (fraction, rest) := match rest with
    | '.' :: rest => (rest.takeWhile isDigit, rest.dropWhile isDigit)
    | rest => ([], rest)
  if whole.isEmpty && fraction.isEmpty then none
  else (readExponent rest).map (⟨negative, whole, fraction, ·⟩)

def readFloat (text : List Char) : Option Binary64 := do
  let (negative, body) := takeSign (← dropGrouping (normalize text))
  let name := String.ofList (body.map Char.toLower)
  if name = "inf" ∨ name = "infinity" then
    some (if negative then -Binary64.infinity else Binary64.infinity)
  else if name = "nan" then
    some (if negative then -Binary64.notANumber else Binary64.notANumber)
  else (readSpelling negative body).map Spelling.value

/-- Longer integers are neither read nor written. -/
def digitLimit : Nat :=
  4300

def readInt (text : List Char) : Option Int := do
  let (negative, ds) := takeSign (← dropGrouping (normalize text))
  if ds.isEmpty || !ds.all isDigit || digitLimit < ds.length then none
  else some (if negative then -(ofDigits ds : Int) else ofDigits ds)

end PlanarDrive.Decimal
