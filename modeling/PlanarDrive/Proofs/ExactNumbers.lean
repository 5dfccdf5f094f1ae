import Mathlib
import PlanarDrive.Scalar

/-!
# Exact numbers

In an ordered field motion and geometry are computed without rounding, and every number is
finite. Of the elementary functions nothing is assumed here but the sign of `pi`; a root is
asked for where circles are met. The real numbers with their usual functions are an instance.
-/

namespace PlanarDrive

/-- An ordered field with the functions that plane geometry needs. -/
class Exact (K : Type) [Field K] [LinearOrder K] where
  pi : K
  pi_pos : 0 < pi
  cos : K → K
  sin : K → K
  sqrt : K → K
  hypot : K → K → K
  modulo : K → K → K
  roundEven : K → ℤ
  text : K → String

instance (priority := low) Exact.toScalar {K : Type} [Field K] [LinearOrder K] [Exact K] :
    Scalar K where
  toBEq := ⟨fun x y => decide (x = y)⟩
  pi := Exact.pi
  abs x := |x|
  copySign x y := if y < 0 then -|x| else |x|
  cos := Exact.cos
  sin := Exact.sin
  sqrt := Exact.sqrt
  hypot := Exact.hypot
  modulo := Exact.modulo
  roundEven := Exact.roundEven
  isNaN _ := false
  isInfinite _ := false
  text := Exact.text

/-- Exact numbers among which every number from zero on has a root. -/
class Exact.HasRoots (K : Type) [Field K] [LinearOrder K] [Exact K] : Prop where
  sqrt_nonneg (x : K) : 0 ≤ x → 0 ≤ Exact.sqrt x
  sqrt_mul_self (x : K) : 0 ≤ x → Exact.sqrt x * Exact.sqrt x = x

/-- Exact numbers with roots in which the distance of a point is the root of its squares. -/
class Exact.MeasuresDistance (K : Type) [Field K] [LinearOrder K] [Exact K] : Prop
    extends Exact.HasRoots K where
  hypot_eq (x y : K) : Exact.hypot x y = Exact.sqrt (x * x + y * y)

/-- Exact numbers that are rounded to the nearest integer, and from half way to the even one. -/
class Exact.RoundsHalfEven (K : Type) [Field K] [LinearOrder K] [Exact K] : Prop where
  abs_sub_roundEven_le (x : K) : |x - Exact.roundEven x| ≤ 1 / 2
  even_roundEven (x : K) : |x - Exact.roundEven x| = 1 / 2 → Even (Exact.roundEven x : ℤ)

namespace Exact

section Scalars

variable {K : Type} [Field K] [LinearOrder K] [Exact K]

@[simp] theorem scalar_isNaN (x : K) : Scalar.isNaN x = false :=
  rfl

theorem scalar_least (a b : K) : Scalar.least a b = min a b := by
  unfold Scalar.least
  rw [min_comm, min_def_lt]

theorem scalar_greatest (a b : K) : Scalar.greatest a b = max a b := by
  unfold Scalar.greatest
  rw [max_def_lt]

variable [IsStrictOrderedRing K]

theorem scalar_zero : (Scalar.toOfScientific.ofScientific 0 true 1 : K) = 0 := by
  norm_num

theorem scalar_isZero (x : K) : Scalar.toBEq.beq x (0.0 : K) = decide (x = 0) := by
  have h : Scalar.toBEq.beq x (0.0 : K) = decide (x = 0.0) := rfl
  rw [h]
  norm_num

theorem scalar_radians (x : K) : Scalar.radians x = x * Exact.pi / 180 := by
  have h : Scalar.radians x = x * (Exact.pi / 180.0) := rfl
  rw [h]
  norm_num
  ring

theorem scalar_degrees (x : K) : Scalar.degrees x = x * 180 / Exact.pi := by
  have h : Scalar.degrees x = x * (180.0 / Exact.pi) := rfl
  rw [h]
  norm_num
  ring

theorem scalar_divide {b : K} (hb : b ≠ 0) (a : K) : Scalar.divide a b = .ok (a / b) := by
  unfold Scalar.divide
  rw [scalar_isZero, decide_eq_false hb]
  rfl

theorem scalar_squareRoot {x : K} (hx : 0 ≤ x) :
    Scalar.squareRoot x = .ok (Exact.sqrt x) := by
  unfold Scalar.squareRoot
  have hx' : ¬ x < (0.0 : K) := by
    rw [scalar_zero]
    exact hx.not_gt
  exact if_neg hx'

end Scalars

def halfEven {K : Type} [Field K] [LinearOrder K] [FloorRing K] (x : K) : ℤ :=
  if Int.fract x < 1 - Int.fract x then ⌊x⌋
  else if 1 - Int.fract x < Int.fract x then ⌊x⌋ + 1
  else if Even ⌊x⌋ then ⌊x⌋ else ⌊x⌋ + 1

section HalfEven

variable {K : Type} [Field K] [LinearOrder K] [IsStrictOrderedRing K] [FloorRing K]

theorem abs_sub_halfEven_le (x : K) : |x - halfEven x| ≤ 1 / 2 := by
  have hx := Int.floor_add_fract x
  have hnonneg := Int.fract_nonneg x
  have hlt := Int.fract_lt_one x
  unfold halfEven
  split_ifs <;> push_cast <;> rw [abs_le] <;> constructor <;> linarith

theorem even_halfEven {x : K} (h : |x - halfEven x| = 1 / 2) : Even (halfEven x) := by
  have hx := Int.floor_add_fract x
  have hnonneg := Int.fract_nonneg x
  have hlt := Int.fract_lt_one x
  unfold halfEven at h ⊢
  split_ifs at h ⊢ with hlow hhigh heven
  · rw [abs_of_nonneg (by linarith)] at h
    linarith
  · rw [abs_of_nonpos (by push_cast; linarith)] at h
    push_cast at h
    linarith
  · exact heven
  · exact Int.even_add_one.2 heven

end HalfEven

noncomputable instance : Exact ℝ where
  pi := Real.pi
  pi_pos := Real.pi_pos
  cos := Real.cos
  sin := Real.sin
  sqrt := Real.sqrt
  hypot x y := Real.sqrt (x * x + y * y)
  modulo x y := x - y * ⌊x / y⌋
  roundEven := halfEven
  -- a real number has no last digit; what stands on labels decides nothing
  text x := toString (halfEven x)

instance : RoundsHalfEven ℝ where
  abs_sub_roundEven_le := abs_sub_halfEven_le
  even_roundEven _ := even_halfEven

instance : HasRoots ℝ where
  sqrt_nonneg x _ := Real.sqrt_nonneg x
  sqrt_mul_self _ hx := Real.mul_self_sqrt hx

instance : MeasuresDistance ℝ where
  hypot_eq _ _ := rfl

end Exact

end PlanarDrive
