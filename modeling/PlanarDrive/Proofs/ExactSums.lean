import PlanarDrive.Proofs.ExactNumbers
import PlanarDrive.Sum

/-!
# Sums in exact numbers

However a sum is halved and dealt out to running sums, in exact numbers it is the sum of the list.
-/

namespace PlanarDrive.Sum

variable {K : Type} [Field K] [LinearOrder K] [Exact K] [IsStrictOrderedRing K]

omit [Exact K] in
theorem foldl_eq_sum (xs : List K) : xs.foldl (· + ·) (0.0 : K) = xs.sum := by
  have hzero : (0.0 : K) = 0 := by norm_num
  rw [hzero, List.sum_eq_foldl]

theorem joinLanes_eq_sum (lanes : List K) : joinLanes lanes = lanes.sum := by
  unfold joinLanes
  split
  · next a b c d e f g h =>
    show ((a + b) + (c + d)) + ((e + f) + (g + h)) = _
    simp only [List.sum_cons, List.sum_nil]
    ring
  · exact foldl_eq_sum lanes

/-- What is added to the running sums is added to their total. -/
theorem addLanes_eq_sum (lanes xs : List K) (h : lanes.length = 8) :
    addLanes lanes xs = lanes.sum + xs.sum := by
  induction lanes, xs using addLanes.induct with
  | case1 lanes a b c d e f g k rest ih =>
    have hzip : (lanes.zipWith (· + ·) [a, b, c, d, e, f, g, k]).sum =
        lanes.sum + [a, b, c, d, e, f, g, k].sum :=
      (List.sum_add_sum_eq_sum_zipWith_of_length_eq _ _ h).symm
    rw [addLanes, ih (by simp [h]), hzip, add_assoc, ← List.sum_append]
    rfl
  | case2 lanes rest hrest =>
    rw [addLanes, joinLanes_eq_sum]
    · exact List.foldl_eq_apply_foldr
    · exact hrest

theorem piece_eq_sum (xs : List K) : piece xs = xs.sum := by
  unfold piece
  split
  · rw [addLanes_eq_sum _ _ rfl, ← List.sum_append]
    rfl
  · exact foldl_eq_sum xs

theorem total_eq_sum (xs : List K) : total xs = xs.sum := by
  induction xs using total.induct with
  | case1 xs h ihTake ihDrop =>
    rw [total, dif_pos h, ihTake, ihDrop]
    exact List.sum_take_add_sum_drop xs _
  | case2 xs h => rw [total, dif_neg h, piece_eq_sum]

theorem mean_eq_sum_div (xs : List K) : mean xs = xs.sum / xs.length := by
  rw [mean, total_eq_sum]

end PlanarDrive.Sum
