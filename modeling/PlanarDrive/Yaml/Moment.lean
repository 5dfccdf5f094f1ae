import PlanarDrive.Calendar
import PlanarDrive.Decimal.Reader

/-!
# Dates and times in YAML

A date is written as its year, month and day between dashes. A time of day may follow, after a
blank or a letter, with a fraction of a second, and behind it how far the clock is ahead.
-/

namespace PlanarDrive.Yaml

/-- A time of day as it is written. The fraction and the clock may be left out. -/
structure WrittenTime where
  hour : List Char
  minute : List Char
  second : List Char
  fraction : List Char
  /-- A sign, hours and minutes; universal time is its letter alone. -/
  ahead : Option (Bool × List Char × List Char)
  deriving DecidableEq, Repr

structure WrittenMoment where
  year : List Char
  month : List Char
  day : List Char
  time : Option WrittenTime
  deriving DecidableEq, Repr

namespace WrittenMoment

def digits (least most : Nat) (text : List Char) : Option (List Char × List Char) :=
  let ds := (text.take most).takeWhile Decimal.isDigit
  if ds.length < least then none else some (ds, text.drop ds.length)

def after (c : Char) : List Char → Option (List Char)
  | x :: rest => if x = c then some rest else none
  | [] => none

def isBlank (c : Char) : Bool :=
  c == ' ' || c == '\t'

def readAhead (text : List Char) : Option (Option (Bool × List Char × List Char)) := do
  match text, text.dropWhile isBlank with
  | [], _ => some none
  | _, ['Z'] => some (some (false, [], []))
  | _, s :: rest =>
    if s = '+' ∨ s = '-' then do
      let (hours, rest) ← digits 1 2 rest
      match rest with
      | [] => some (some (s == '-', hours, []))
      | ':' :: rest =>
        let (minutes, rest) ← digits 2 2 rest
        if rest.isEmpty then some (some (s == '-', hours, minutes)) else none
      | _ => none
    else none
  | _, [] => none

def readTime (text : List Char) : Option WrittenTime := do
  let rest ← match text with
    | 'T' :: rest | 't' :: rest => some rest
    | c :: rest => if isBlank c then some (rest.dropWhile isBlank) else none
    | [] => none
  let (hour, rest) ← digits 1 2 rest
  let (minute, rest) ← digits 2 2 (← after ':' rest)
  let (second, rest) ← digits 2 2 (← after ':' rest)
  let (fraction, rest) := match rest with
    | '.' :: rest => (rest.takeWhile Decimal.isDigit, rest.dropWhile Decimal.isDigit)
    | rest => ([], rest)
  some ⟨hour, minute, second, fraction, ← readAhead rest⟩

def read (text : List Char) : Option WrittenMoment := do
  let (year, rest) ← digits 4 4 text
  let (month, rest) ← digits 1 2 (← after '-' rest)
  let (day, rest) ← digits 1 2 (← after '-' rest)
  if rest.isEmpty then some ⟨year, month, day, none⟩
  else some ⟨year, month, day, some (← readTime rest)⟩

/-- Whether a text counts as a date without being marked: a date alone has all its digits. -/
def isWritten (text : List Char) : Bool :=
  (read text).any fun w => w.time.isSome || (w.month.length == 2 && w.day.length == 2)

def date (w : WrittenMoment) : Except (Fault Binary64) Date :=
  Date.check (Decimal.ofDigits w.year) (Decimal.ofDigits w.month) (Decimal.ofDigits w.day)

end WrittenMoment

namespace WrittenTime

/-- The millionths of a second; further digits are dropped. -/
def microsecond (t : WrittenTime) : Nat :=
  let ds := t.fraction.take 6
  Decimal.ofDigits ds * Nat.pow 10 (6 - ds.length)

def aheadMinutes (t : WrittenTime) : Option Int :=
  t.ahead.map fun (negative, hours, minutes) =>
    let n : Int := 60 * Decimal.ofDigits hours + Decimal.ofDigits minutes
    if negative then -n else n

def moment (t : WrittenTime) (date : Date) : Except (Fault Binary64) Moment :=
  Moment.check date (Decimal.ofDigits t.hour) (Decimal.ofDigits t.minute)
    (Decimal.ofDigits t.second) t.microsecond t.aheadMinutes

end WrittenTime

end PlanarDrive.Yaml
