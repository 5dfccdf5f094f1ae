import PlanarDrive.Binary64.Parts

/-!
# Decimal numerals of floating point numbers

A numeral is a natural coefficient and a power of ten. A positive number has a numeral
rounded to a number of significant digits, one rounded to a number of places, and a
shortest one among those that read back as the same number.
-/

namespace PlanarDrive.Decimal

/-- The number `coefficient * 10 ^ exponent`. -/
structure Numeral where
  coefficient : Nat
  exponent : Int
  deriving DecidableEq, Repr

def digitCount (n : Nat) : Nat :=
  if n < 10 then 1 else digitCount (n / 10) + 1

/-- The largest power of ten not above the positive quotient `num / den`. -/
def order (num den : Nat) : Int :=
  if den ≤ num then (digitCount (num / den) : Int) - 1 else -(digitCount ((den - 1) / num) : Int)

def shift (num den : Nat) (power : Int) : Nat × Nat :=
  if power < 0 then (num, den * Nat.pow 10 power.natAbs)
  else (num * Nat.pow 10 power.natAbs, den)

namespace Numeral

def order (n : Numeral) : Int :=
  n.exponent + digitCount n.coefficient - 1

def significant (count : Nat) (num den : Nat) : Numeral :=
  let exponent := Decimal.order num den - (count - 1 : Int)
  let (n, d) := shift num den (-exponent)
  ⟨roundQuotient n d, exponent⟩

def places (places : Nat) (num den : Nat) : Numeral :=
  ⟨roundQuotient (num * Nat.pow 10 places) den, -places⟩

end Numeral

/-- The numbers that round to a positive floating point number, in quarters of its last
place: the ends belong to the interval when the significand is even. -/
structure Interval where
  value : Nat
  below : Nat
  above : Nat
  closed : Bool
  scale : Int

/-- Below a power of two the numbers lie twice as dense. -/
def Interval.around (p : Binary64.Parts) : Interval where
  value := 4 * p.significand
  below := if p.significand = Nat.pow 2 52 ∧ -1074 < p.exponent then 1 else 2
  above := 2
  closed := p.significand % 2 == 0
  scale := p.exponent - 2

def Interval.holds (i : Interval) (n d : Nat) : Bool :=
  let low := (i.value - i.below) * d
  let high := (i.value + i.above) * d
  if i.closed then low ≤ n && n ≤ high else low < n && n < high

/-- The point of the grid of `10 ^ exponent` that lies in the interval and nearest to its
value, if there is one; of two equally near the even one. -/
def Interval.onGrid (i : Interval) (exponent : Int) : Option Nat :=
  let two := Nat.pow 2 i.scale.natAbs
  let ten := Nat.pow 10 exponent.natAbs
  let unit := (if exponent < 0 then 1 else ten) * if i.scale < 0 then two else 1
  let den := (if exponent < 0 then ten else 1) * if i.scale < 0 then 1 else two
  let floor := i.value * den / unit
  let first := roundQuotient (i.value * den) unit
  let second := if first = floor then floor + 1 else floor
  if i.holds (first * unit) den then some first
  else if i.holds (second * unit) den then some second
  else none

def Interval.firstOnGrid (i : Interval) (top : Int) : Nat → Nat → Option Numeral
  | _, 0 => none
  | digits, tries + 1 =>
    let exponent := top - digits
    match i.onGrid exponent with
    | some c => some ⟨c, exponent⟩
    | none => i.firstOnGrid top (digits + 1) tries

/-- The shortest numeral that reads back as the positive number with these parts, and of
those the nearest to it. Seventeen digits always suffice. -/
def Numeral.shortest (p : Binary64.Parts) : Numeral :=
  let (num, den) := p.ratio
  let top := Decimal.order num den
  ((Interval.around p).firstOnGrid top 0 17).getD (.significant 17 num den)

end PlanarDrive.Decimal
