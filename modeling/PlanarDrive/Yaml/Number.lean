import PlanarDrive.Json.Token

/-!
# Numbers in YAML

Integers may be binary, octal with a leading zero, hexadecimal, or groups of sixty set off by
colons. A number with a point is floating, and an exponent needs a sign and a point. Which
texts are taken for numbers without being marked is narrower than which can be read as one.
-/

namespace PlanarDrive.Yaml.Number

def isDigitOrGap (c : Char) : Bool :=
  Decimal.isDigit c || c == '_'

/-- Underscores may stand anywhere in a number. -/
def dropGaps (text : List Char) : List Char :=
  text.filter (· != '_')

def isGroup : List Char → Bool
  | [a] => Decimal.isDigit a
  | [a, b] => '0' ≤ a && a ≤ '5' && Decimal.isDigit b
  | _ => false

def isMagnitude : List Char → Bool
  | '0' :: 'b' :: ds => !ds.isEmpty && ds.all fun c => c == '0' || c == '1' || c == '_'
  | '0' :: 'x' :: ds => !ds.isEmpty && ds.all fun c => (Json.hexValue? c).isSome || c == '_'
  | '0' :: ds => ds.all fun c => ('0' ≤ c && c ≤ '7') || c == '_'
  | c :: rest =>
    match (c :: rest).splitOn ':' with
    | first :: groups =>
      '1' ≤ c && c ≤ '9' && first.all isDigitOrGap && groups.all isGroup
    | [] => false
  | [] => false

def isInt (text : List Char) : Bool :=
  isMagnitude (Decimal.takeSign text).2

/-- An exponent, which has to have a sign. -/
def isExponent : List Char → Bool
  | [] => true
  | c :: s :: ds =>
    (c == 'e' || c == 'E') && (s == '+' || s == '-') && !ds.isEmpty && ds.all Decimal.isDigit
  | _ => false

def isPointed (text : List Char) : Bool :=
  match text.dropWhile isDigitOrGap with
  | '.' :: rest => isExponent (rest.dropWhile isDigitOrGap)
  | _ => false

def isPointedGroups (text : List Char) : Bool :=
  match (text.takeWhile (· != '.')).splitOn ':' with
  | first :: group :: groups =>
    text.contains '.' && first.all isDigitOrGap && (group :: groups).all isGroup &&
      ((text.dropWhile (· != '.')).drop 1).all isDigitOrGap
  | _ => false

def isFloat (text : List Char) : Bool :=
  let body := (Decimal.takeSign text).2
  let hasSign := body.length < text.length
  let name := String.ofList body
  if [".inf", ".Inf", ".INF"].contains name then true
  else if [".nan", ".NaN", ".NAN"].contains name then !hasSign
  else
    match body with
    | '.' :: c :: _ => !hasSign && Decimal.isDigit c && isPointed body
    | c :: _ => Decimal.isDigit c && (isPointed body || isPointedGroups body)
    | [] => false

/-- The value of a digit in bases up to 36. -/
def digit? (c : Char) : Option Nat :=
  if Decimal.isDigit c then some (c.toNat - '0'.toNat)
  else if 'a' ≤ c ∧ c ≤ 'z' then some (c.toNat - 'a'.toNat + 10)
  else if 'A' ≤ c ∧ c ≤ 'Z' then some (c.toNat - 'A'.toNat + 10)
  else none

def dropBase (base : Nat) (text : List Char) : List Char :=
  match text with
  | '0' :: c :: rest =>
    if (base, c.toLower) = (2, 'b') ∨ (base, c.toLower) = (8, 'o') ∨ (base, c.toLower) = (16, 'x')
    then rest else text
  | _ => text

/-- An integer in a base that is a power of two. -/
def readInBase (base : Nat) (text : List Char) : Except (Fault Binary64) Int :=
  let (negative, body) := Decimal.takeSign (Decimal.normalize text)
  let ds := dropBase base body
  if ds.isEmpty || !ds.all fun c => (digit? c).any (· < base) then .error .notNumeric
  else
    let n := ds.foldl (fun n c => base * n + (digit? c).getD 0) 0
    .ok (if negative then -(n : Int) else n)

def readDecimal (text : List Char) : Except (Fault Binary64) Int :=
  (Decimal.readInt text).elim (.error .notNumeric) .ok

def readFloat (text : List Char) : Except (Fault Binary64) Binary64 :=
  (Decimal.readFloat text).elim (.error .notNumeric) .ok

def splitSign (text : List Char) : Except (Fault Binary64) (Bool × List Char) :=
  if text.isEmpty then .error .outOfRange else .ok (Decimal.takeSign text)

def readMagnitude : List Char → Except (Fault Binary64) Int
  | [] => .error .outOfRange
  | ['0'] => .ok 0
  | '0' :: 'b' :: ds => readInBase 2 ds
  | '0' :: 'x' :: ds => readInBase 16 ds
  | '0' :: ds => readInBase 8 ('0' :: ds)
  | text =>
    if text.contains ':' then do
      .ok ((← (text.splitOn ':').mapM readDecimal).foldl (fun n g => 60 * n + g) 0)
    else readDecimal text

def readInt (text : List Char) : Except (Fault Binary64) Int := do
  let (negative, body) ← splitSign (dropGaps text)
  let n ← readMagnitude body
  .ok (if negative then -n else n)

/-- The sum of groups of sixty, from the last one on, of which each counts `unit`. -/
def sumGroups (sum : Binary64) (unit : Nat) : List Binary64 → Except (Fault Binary64) Binary64
  | [] => .ok sum
  | g :: rest =>
    let scale := Binary64.ofNat unit
    if scale.isInfinite then .error .tooLarge
    else sumGroups (sum + g * scale) (unit * 60) rest

def read (text : List Char) : Except (Fault Binary64) Binary64 := do
  let (negative, body) ← splitSign ((dropGaps text).map Char.toLower)
  let x ←
    if body = ".inf".toList then .ok Binary64.infinity
    else if body = ".nan".toList then .ok Binary64.notANumber
    else if body.contains ':' then do
      sumGroups 0.0 1 (← (body.splitOn ':').mapM readFloat).reverse
    else readFloat body
  .ok (if negative then -x else x)

end PlanarDrive.Yaml.Number
