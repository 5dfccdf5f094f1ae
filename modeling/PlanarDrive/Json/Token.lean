import PlanarDrive.Value

/-!
# Tokens of JSON text

Text is cut into brackets, marks, names, numbers and strings; blanks between them are
dropped. The grammar of a whole value is in `PlanarDrive.Json.Reader`.
-/

namespace PlanarDrive.Json

inductive Token
  | openRecord
  | closeRecord
  | openList
  | closeList
  | comma
  | colon
  | leaf (value : Value)
  | name (text : String)
  /-- An integer with more digits than are read. -/
  | longInteger
  /-- A place where no token begins. -/
  | malformed
  deriving Inhabited

def isSpace (c : Char) : Bool :=
  c == ' ' || c == '\t' || c == '\n' || c == '\r'

def hexValue? (c : Char) : Option Nat :=
  if '0' ≤ c ∧ c ≤ '9' then some (c.toNat - '0'.toNat)
  else if 'a' ≤ c ∧ c ≤ 'f' then some (c.toNat - 'a'.toNat + 10)
  else if 'A' ≤ c ∧ c ≤ 'F' then some (c.toNat - 'A'.toNat + 10)
  else none

def codeUnit? : List Char → Option (Nat × List Char)
  | a :: b :: c :: d :: rest => do
    let a ← hexValue? a
    let b ← hexValue? b
    let c ← hexValue? c
    let d ← hexValue? d
    some (((a * 16 + b) * 16 + c) * 16 + d, rest)
  | _ => none

theorem length_of_codeUnit? {text rest : List Char} {n : Nat}
    (h : codeUnit? text = some (n, rest)) : rest.length + 4 = text.length := by
  unfold codeUnit? at h
  split at h
  · simp only [Option.bind_eq_bind, Option.bind_eq_some_iff, Option.some.injEq,
      Prod.mk.injEq] at h
    obtain ⟨_, _, _, _, _, _, _, _, _, rfl⟩ := h
    simp
  · simp at h

def isHighUnit (n : Nat) : Bool :=
  0xd800 ≤ n && n ≤ 0xdbff

def isLowUnit (n : Nat) : Bool :=
  0xdc00 ≤ n && n ≤ 0xdfff

/-- The character of a code unit; half of a pair alone stands for the replacement character. -/
def charOfUnit (n : Nat) : Char :=
  if isHighUnit n || isLowUnit n then '\ufffd' else Char.ofNat n

def charOfPair (high low : Nat) : Char :=
  Char.ofNat (0x10000 + (high - 0xd800) * 0x400 + (low - 0xdc00))

def shortEscape? : Char → Option Char
  | '"' => some '"'
  | '\\' => some '\\'
  | '/' => some '/'
  | 'b' => some '\x08'
  | 'f' => some '\x0c'
  | 'n' => some '\n'
  | 'r' => some '\r'
  | 't' => some '\t'
  | _ => none

/-- The character that begins with this code unit; half of a pair needs the other half. -/
def pairedChar (high : Nat) (rest : List Char) : Char × List Char :=
  match isHighUnit high, rest with
  | true, '\\' :: 'u' :: more =>
    match codeUnit? more with
    | some (low, more) =>
      if isLowUnit low then (charOfPair high low, more) else (charOfUnit high, rest)
    | none => (charOfUnit high, rest)
  | _, _ => (charOfUnit high, rest)

theorem length_pairedChar_le (high : Nat) (rest : List Char) :
    (pairedChar high rest).2.length ≤ rest.length := by
  unfold pairedChar
  split
  · split
    · next h =>
      have := length_of_codeUnit? h
      split
      · simp
        omega
      · simp
    · simp
  · simp

def escape? : List Char → Option (Char × List Char)
  | [] => none
  | 'u' :: rest => (codeUnit? rest).map fun u => pairedChar u.1 u.2
  | c :: rest => (shortEscape? c).map (·, rest)

theorem length_of_escape? {text rest : List Char} {c : Char}
    (h : escape? text = some (c, rest)) : rest.length < text.length := by
  unfold escape? at h
  split at h
  · simp at h
  · obtain ⟨⟨n, more⟩, hu, hp⟩ := Option.map_eq_some_iff.1 h
    have hl := length_of_codeUnit? hu
    have hr := length_pairedChar_le n more
    simp only [hp] at hr
    simp only [List.length_cons]
    omega
  · obtain ⟨_, _, hp⟩ := Option.map_eq_some_iff.1 h
    simp only [Prod.mk.injEq] at hp
    simp [← hp.2]

/-- The characters of a string up to its closing quote, the latest first in `past`. A control
character has to be escaped. -/
def stringBody (past : List Char) (text : List Char) : Option (List Char × List Char) :=
  match text with
  | [] => none
  | '"' :: rest => some (past.reverse, rest)
  | '\\' :: rest =>
    match _h : escape? rest with
    | some (c, more) => stringBody (c :: past) more
    | none => none
  | c :: rest => if c.toNat < 0x20 then none else stringBody (c :: past) rest
termination_by text.length
decreasing_by
  · have := length_of_escape? _h
    simp only [List.length_cons]
    omega
  · simp

def word? (word : List Char) (text : List Char) : Option (List Char) :=
  if word.isPrefixOf text then some (text.drop word.length) else none

def fractionPart : List Char → List Char × List Char
  | '.' :: d :: rest =>
    if Decimal.isDigit d then (d :: rest.takeWhile Decimal.isDigit, rest.dropWhile Decimal.isDigit)
    else ([], '.' :: d :: rest)
  | text => ([], text)

def exponentPart : List Char → Option Int × List Char
  | [] => (none, [])
  | c :: rest =>
    let (negative, ds) := Decimal.takeSign rest
    let size := ds.takeWhile Decimal.isDigit
    if (c == 'e' || c == 'E') && !size.isEmpty then
      (some (if negative then -(Decimal.ofDigits size : Int) else Decimal.ofDigits size),
        ds.dropWhile Decimal.isDigit)
    else (none, c :: rest)

/-- The whole part of a number: zero alone, or digits that do not begin with zero. -/
def wholePart : List Char → List Char × List Char
  | '0' :: rest => (['0'], rest)
  | text => (text.takeWhile Decimal.isDigit, text.dropWhile Decimal.isDigit)

/-- A number without its sign. It is an integer unless it has a fraction or an exponent. -/
def number (negative : Bool) (text : List Char) : Token × List Char :=
  let (whole, rest) := wholePart text
  let (fraction, rest) := fractionPart rest
  let (exponent, rest) := exponentPart rest
  if whole.isEmpty then (.malformed, [])
  else if fraction.isEmpty && exponent.isNone then
    if Decimal.digitLimit < whole.length then (.longInteger, rest)
    else
      let n : Int := Decimal.ofDigits whole
      (.leaf (.int (if negative then -n else n)), rest)
  else
    (.leaf (.float (Decimal.Spelling.value ⟨negative, whole, fraction, exponent.getD 0⟩)), rest)

def wordToken (text : List Char) : Token × List Char :=
  match word? "null".toList text, word? "true".toList text, word? "false".toList text,
    word? "NaN".toList text, word? "Infinity".toList text with
  | some rest, _, _, _, _ => (.leaf .null, rest)
  | _, some rest, _, _, _ => (.leaf (.bool true), rest)
  | _, _, some rest, _, _ => (.leaf (.bool false), rest)
  | _, _, _, some rest, _ => (.leaf (.float Binary64.notANumber), rest)
  | _, _, _, _, some rest => (.leaf (.float Binary64.infinity), rest)
  | _, _, _, _, _ => (.malformed, [])

def next (c : Char) (rest : List Char) : Token × List Char :=
  match c with
  | '\x7b' => (.openRecord, rest)
  | '\x7d' => (.closeRecord, rest)
  | '[' => (.openList, rest)
  | ']' => (.closeList, rest)
  | ',' => (.comma, rest)
  | ':' => (.colon, rest)
  | '"' =>
    match stringBody [] rest with
    | some (body, rest) => (.name (String.ofList body), rest)
    | none => (.malformed, [])
  | '-' =>
    match word? "Infinity".toList rest with
    | some rest => (.leaf (.float (-Binary64.infinity)), rest)
    | none => number true rest
  | c => if Decimal.isDigit c then number false (c :: rest) else wordToken (c :: rest)

/-- All tokens of a text, the latest first in `past`. -/
def tokenize : Nat → List Token → List Char → List Token
  | 0, past, _ => past.reverse
  | _, past, [] => past.reverse
  | fuel + 1, past, c :: rest =>
    if isSpace c then tokenize fuel past rest
    else
      let (token, rest) := next c rest
      tokenize fuel (token :: past) rest

def tokens (text : List Char) : List Token :=
  tokenize text.length [] text

end PlanarDrive.Json
