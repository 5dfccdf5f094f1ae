/-!
# Rounding a quotient to an integer

A quotient of natural numbers goes to the nearest integer, and one that lies half way
to the even neighbour. The result is never more than half a unit away.
-/

namespace PlanarDrive

/-- The integer nearest to `n / d`, a half going to the even one. -/
def roundQuotient (n d : Nat) : Nat :=
  let q := n / d
  let r := 2 * (n % d)
  if r < d then q else if d < r then q + 1 else if q % 2 = 0 then q else q + 1

theorem roundQuotient_le (n d : Nat) (hd : 0 < d) : 2 * (d * roundQuotient n d) ≤ 2 * n + d := by
  have h := Nat.div_add_mod n d
  have hr := Nat.mod_lt n hd
  have hs : d * (n / d + 1) = d * (n / d) + d := Nat.mul_succ _ _
  simp only [roundQuotient]
  split
  · omega
  · split
    · omega
    · split <;> omega

theorem le_roundQuotient (n d : Nat) (hd : 0 < d) : 2 * n ≤ 2 * (d * roundQuotient n d) + d := by
  have h := Nat.div_add_mod n d
  have hr := Nat.mod_lt n hd
  have hs : d * (n / d + 1) = d * (n / d) + d := Nat.mul_succ _ _
  simp only [roundQuotient]
  split
  · omega
  · split
    · omega
    · split <;> omega

end PlanarDrive
