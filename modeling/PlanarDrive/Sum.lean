import PlanarDrive.Scalar

/-!
# Sums and means

A long sum is halved again and again and the halves are added, with eight running sums in
a short piece. Fewer additions stand above one another than in a sum from left to right,
so less is lost to rounding. In exact arithmetic the order makes no difference.
-/

namespace PlanarDrive.Sum

variable {α : Type} [Scalar α]

def joinLanes : List α → α
  | [a, b, c, d, e, f, g, h] => ((a + b) + (c + d)) + ((e + f) + (g + h))
  | xs => xs.foldl (· + ·) 0.0

/-- Adds numbers to eight running sums in turn, and the last few to their total. -/
def addLanes (lanes : List α) : List α → α
  | a :: b :: c :: d :: e :: f :: g :: h :: rest =>
    addLanes (lanes.zipWith (· + ·) [a, b, c, d, e, f, g, h]) rest
  | rest => rest.foldl (· + ·) (joinLanes lanes)

def piece : List α → α
  | a :: b :: c :: d :: e :: f :: g :: h :: rest => addLanes [a, b, c, d, e, f, g, h] rest
  | xs => xs.foldl (· + ·) 0.0

/-- Where a long sum is cut: at its middle, down to a multiple of eight. -/
def cut (n : Nat) : Nat :=
  n / 2 - n / 2 % 8

theorem cut_pos {n : Nat} (h : 128 < n) : 0 < cut n := by
  unfold cut
  omega

theorem cut_lt {n : Nat} (h : 128 < n) : cut n < n := by
  unfold cut
  omega

def total (xs : List α) : α :=
  if _h : 128 < xs.length then
    total (xs.take (cut xs.length)) + total (xs.drop (cut xs.length))
  else piece xs
termination_by xs.length
decreasing_by
  · have := cut_lt _h
    simp only [List.length_take]
    omega
  · have := cut_pos _h
    simp only [List.length_drop]
    omega

def mean (xs : List α) : α :=
  total xs / (xs.length : α)

end PlanarDrive.Sum
