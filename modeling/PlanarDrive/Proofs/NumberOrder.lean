import PlanarDrive.Proofs.ExactNumbers

/-!
# Numbers and what is no number

Scalars may hold infinite numbers and things that are no number. Comparison puts the numbers in
order and is false of everything else. What follows from this alone holds for whatever values sums,
products, quotients and roots have.
-/

namespace PlanarDrive

/-- Any two numbers compare, and what is no number compares with nothing. A number that equals zero
counts as parallel to the sides of a box. Of the arithmetic operations nothing is assumed. -/
class Scalar.OrdersNumbers (α : Type) [Scalar α] : Prop where
  lt_iff_le_not_ge (x y : α) : x < y ↔ x ≤ y ∧ ¬ y ≤ x
  isNaN_of_le {x y : α} : x ≤ y → isNaN x = false ∧ isNaN y = false
  le_total {x y : α} : isNaN x = false → isNaN y = false → x ≤ y ∨ y ≤ x
  isNaN_zero : isNaN (0.0 : α) = false
  abs_lt_of_isZero {x : α} : (x == 0.0) = true → abs x < 1e-8

namespace Scalar

variable {α : Type} [Scalar α] [OrdersNumbers α] {x y : α}

theorem le_self (h : isNaN x = false) : x ≤ x :=
  (OrdersNumbers.le_total h h).elim id id

protected theorem le_of_lt (h : x < y) : x ≤ y :=
  ((OrdersNumbers.lt_iff_le_not_ge x y).1 h).1

protected theorem not_lt_of_le (h : x ≤ y) : ¬ y < x := fun hlt =>
  ((OrdersNumbers.lt_iff_le_not_ge y x).1 hlt).2 h

protected theorem le_of_not_lt (hx : isNaN x = false) (hy : isNaN y = false) (h : ¬ y < x) : x ≤ y := by
  rcases OrdersNumbers.le_total hx hy with hle | hge
  · exact hle
  · by_contra hnot
    exact h ((OrdersNumbers.lt_iff_le_not_ge y x).2 ⟨hge, hnot⟩)

theorem not_lt_self (x : α) : ¬ x < x := fun h =>
  Scalar.not_lt_of_le (Scalar.le_of_lt h) h

theorem divide_ok {step : α} (h : ¬ abs step < 1e-8) (a : α) : divide a step = .ok (a / step) :=
  if_neg fun hzero => h (OrdersNumbers.abs_lt_of_isZero hzero)

theorem squareRoot_greatest_ok (x : α) :
    squareRoot (greatest x 0.0) = .ok (sqrt (greatest x 0.0)) := by
  refine if_neg ?_
  unfold greatest
  split_ifs with h
  · exact not_lt_self _
  · exact h

end Scalar

namespace Exact

variable {K : Type} [Field K] [LinearOrder K] [IsStrictOrderedRing K] [Exact K]

/-- Of exact numbers everything is a number. -/
instance : Scalar.OrdersNumbers K where
  lt_iff_le_not_ge _ _ := lt_iff_le_not_ge
  isNaN_of_le _ := ⟨rfl, rfl⟩
  le_total _ _ := LinearOrder.le_total _ _
  isNaN_zero := rfl
  abs_lt_of_isZero {x} h := by
    have hx : x = 0 := by simpa [scalar_isZero] using h
    have habs : Scalar.abs x = 0 := (congrArg abs hx).trans abs_zero
    have hbound : (Scalar.toOfScientific.ofScientific 1 true 8 : K) = 1e-8 := by norm_num
    rw [habs, hbound]
    norm_num

end Exact

end PlanarDrive
