import PlanarDrive.Binary64
import PlanarDrive.Fault
import PlanarDrive.Text.Join

/-!
# Dates and times of day

A date is a day of a year from 1 to 9999. A moment is a date with a time of day, and may tell
how far its clock is ahead of universal time, by less than a day. Dates and times that do not
exist are refused.
-/

namespace PlanarDrive

structure Date where
  year : Nat
  month : Nat
  day : Nat
  deriving DecidableEq, Repr

structure Moment where
  date : Date
  hour : Nat
  minute : Nat
  second : Nat
  microsecond : Nat
  /-- The minutes by which the clock is ahead, when they are known. -/
  ahead : Option Int
  deriving DecidableEq, Repr

namespace Date

def isLeap (year : Nat) : Bool :=
  year % 4 == 0 && (year % 100 != 0 || year % 400 == 0)

def daysIn (year month : Nat) : Nat :=
  if month = 2 then (if isLeap year then 29 else 28)
  else if [4, 6, 9, 11].contains month then 30
  else 31

def check (year month day : Nat) : Except (Fault Binary64) Date :=
  if 1 ≤ year ∧ year ≤ 9999 ∧ 1 ≤ month ∧ month ≤ 12 ∧ 1 ≤ day ∧ day ≤ daysIn year month then
    .ok ⟨year, month, day⟩
  else .error .outOfDomain

def text (d : Date) : List Char :=
  Text.join "-" [Text.padZeros 4 d.year, Text.padZeros 2 d.month, Text.padZeros 2 d.day]

def parts (d : Date) : List Nat :=
  [d.year, d.month, d.day]

def quoted (d : Date) : List Char :=
  "datetime.date(".toList ++ Text.join ", " (d.parts.map (Nat.toDigits 10)) ++ [')']

end Date

namespace Moment

def dayMinutes : Nat :=
  1440

def check (date : Date) (hour minute second microsecond : Nat) (ahead : Option Int) :
    Except (Fault Binary64) Moment :=
  if hour < 24 ∧ minute < 60 ∧ second < 60 ∧ ahead.all (·.natAbs < dayMinutes) then
    .ok ⟨date, hour, minute, second, microsecond, ahead⟩
  else .error .outOfDomain

def aheadText (minutes : Int) : List Char :=
  (if minutes < 0 then '-' else '+') ::
    (Text.padZeros 2 (minutes.natAbs / 60) ++ ':' :: Text.padZeros 2 (minutes.natAbs % 60))

def text (m : Moment) : List Char :=
  m.date.text ++ ' ' :: Text.join ":" ([m.hour, m.minute, m.second].map (Text.padZeros 2)) ++
    (if m.microsecond = 0 then [] else '.' :: Text.padZeros 6 m.microsecond) ++
    m.ahead.elim [] aheadText

/-- How far a clock is ahead, inside a message: days and seconds, of which only the days may be
negative. -/
def aheadQuoted (minutes : Int) : List Char :=
  if minutes = 0 then "datetime.timezone.utc".toList
  else
    let seconds := minutes * 60 % (60 * dayMinutes)
    "datetime.timezone(datetime.timedelta(".toList ++
      (if minutes < 0 then "days=-1, " else "").toList ++ "seconds=".toList ++
      Nat.toDigits 10 seconds.toNat ++ [')', ')']

/-- The parts of the time of day up to the last one that has to be told. -/
def timeParts (m : Moment) : List Nat :=
  [m.hour, m.minute] ++
    (if m.microsecond ≠ 0 then [m.second, m.microsecond]
      else if m.second ≠ 0 then [m.second] else [])

def quoted (m : Moment) : List Char :=
  "datetime.datetime(".toList ++
    Text.join ", " ((m.date.parts ++ m.timeParts).map (Nat.toDigits 10) ++
      (m.ahead.map fun a => "tzinfo=".toList ++ aheadQuoted a).toList) ++ [')']

end Moment

end PlanarDrive
