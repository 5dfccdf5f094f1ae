import PlanarDrive.Decimal.Numeral

/-!
# How numbers are written

A layout says which orders of magnitude are written with all their places and when an
integer keeps a point. Text that is read back uses the shortest digits; labels use six
significant ones; tables a fixed number of places.
-/

namespace PlanarDrive.Decimal

/-- Numbers with an order from `least` on and below `limit` are written positionally. -/
structure Layout where
  least : Int
  limit : Int
  keepPoint : Bool
  deriving DecidableEq, Repr

/-- Exact numbers are positional below `10 ^ 16` and keep a point. -/
def Layout.exact : Layout :=
  ⟨-4, 16, true⟩

/-- Rounded numbers are positional while their digits reach the unit. -/
def Layout.rounded (digits : Nat) : Layout :=
  ⟨-4, digits, false⟩

def digits (n : Nat) : List Char :=
  Nat.toDigits 10 n

def significantDigits (n : Nat) : List Char :=
  ((digits n).reverse.dropWhile (· == '0')).reverse

def exponentText (order : Int) : List Char :=
  let size := digits order.natAbs
  'e' :: (if order < 0 then '-' else '+') :: (if size.length < 2 then '0' :: size else size)

/-- Writes digits of which the first counts `10 ^ order`. -/
def Layout.place (layout : Layout) (order : Int) (ds : List Char) : List Char :=
  if order < layout.least ∨ layout.limit ≤ order then
    ds.take 1 ++ (if ds.length ≤ 1 then [] else '.' :: ds.drop 1) ++ exponentText order
  else if order < 0 then
    '0' :: '.' :: (List.replicate (order.natAbs - 1) '0' ++ ds)
  else
    let whole := order.toNat + 1
    if ds.length ≤ whole then
      ds ++ List.replicate (whole - ds.length) '0' ++ (if layout.keepPoint then ['.', '0'] else [])
    else ds.take whole ++ '.' :: ds.drop whole

def Layout.numeral (layout : Layout) (n : Numeral) : List Char :=
  layout.place n.order (significantDigits n.coefficient)

def signed (x : Binary64) (magnitude : Binary64.Parts → List Char) : List Char :=
  if x.isNaN then ['n', 'a', 'n']
  else
    let body := if x.isInfinite then ['i', 'n', 'f'] else magnitude (x.parts)
    if x.isNegative then '-' :: body else body

/-- The shortest text that reads back as the same number. -/
def exact (x : Binary64) : List Char :=
  signed x fun p =>
    if p.significand = 0 then Layout.exact.place 0 ['0']
    else Layout.exact.numeral (.shortest p)

def general (count : Nat) (x : Binary64) : List Char :=
  signed x fun p =>
    if p.significand = 0 then ['0']
    else (Layout.rounded count).numeral (.significant count p.ratio.1 p.ratio.2)

def fixed (places : Nat) (x : Binary64) : List Char :=
  signed x fun p =>
    let ds := digits (Numeral.places places p.ratio.1 p.ratio.2).coefficient
    let ds := List.replicate (places + 1 - ds.length) '0' ++ ds
    let whole := ds.length - places
    ds.take whole ++ '.' :: ds.drop whole

end PlanarDrive.Decimal
