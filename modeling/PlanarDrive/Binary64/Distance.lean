import PlanarDrive.Binary64.Parts

/-!
# Distances without loss

The square root of a sum of squares is the last step in every distance. The squares are added
to a sum that begins at one, so that every addition rounds down the same places, and what the
additions lose is summed up beside it. The root of the sum is then corrected once by what is
missing from its own square. Numbers are scaled to below one first, so nothing overflows.
-/

namespace PlanarDrive.Binary64

/-- A sum of terms and what its additions have lost, by the size of the terms. -/
structure LosslessSum where
  sum : Binary64
  coarse : Binary64
  middle : Binary64
  fine : Binary64
  deriving DecidableEq, Repr

/-- Two numbers of half as many places that add up to a number: the product of any two such
halves is exact. -/
def halves (x : Binary64) : Binary64 × Binary64 :=
  let wide := x * 134217729.0
  let high := wide - (wide - x)
  (high, x - high)

namespace LosslessSum

def one : LosslessSum :=
  ⟨1.0, 0.0, 0.0, 0.0⟩

def plus (sum term : Binary64) : Binary64 × Binary64 :=
  let next := sum + term
  (next, (sum - next) + term)

def addSquare (s : LosslessSum) (negative : Bool) (high low : Binary64) : LosslessSum :=
  let signed (x : Binary64) : Binary64 := if negative then -x else x
  let (sum, coarse) := plus s.sum (signed (high * high))
  let (sum, middle) := plus sum (signed (2.0 * high * low))
  let (sum, fine) := plus sum (signed (low * low))
  ⟨sum, s.coarse + coarse, s.middle + middle, s.fine + fine⟩

def total (s : LosslessSum) : Binary64 :=
  s.sum - 1.0 + (s.coarse + s.middle + s.fine)

end LosslessSum

def unitDistance (x y : Binary64) : Binary64 :=
  let add (s : LosslessSum) (negative : Bool) (v : Binary64) : LosslessSum :=
    s.addSquare negative (halves v).1 (halves v).2
  let squares := add (add .one false x) false y
  let root := squares.total.sqrt
  root + (add squares true root).total / (2.0 * root)

/-- The length of a vector so short that its components cannot be scaled by a power of two; they
are divided by the larger one. -/
def tinyDistance (x y largest : Binary64) : Binary64 :=
  let (sum, lost) := LosslessSum.plus 1.0 (x / largest * (x / largest))
  let (sum, lost') := LosslessSum.plus sum (y / largest * (y / largest))
  largest * (sum - 1.0 + (lost + lost')).sqrt

/-- The length of the vector `(x, y)`. An infinite component outweighs one that is no number. -/
def hypot (x y : Binary64) : Binary64 :=
  let x := x.abs
  let y := y.abs
  if x.isInfinite || y.isInfinite then infinity
  else if x.isNaN || y.isNaN then notANumber
  else
    let largest := if x < y then y else x
    if largest == 0.0 then largest
    else
      let order := largest.binaryOrder
      if order < -1023 then tinyDistance x y largest
      else
        let unit := powerOfTwo (-order)
        unitDistance (x * unit) (y * unit) / unit

end PlanarDrive.Binary64
