import PlanarDrive.Binary64
import PlanarDrive.Rounding

/-!
# The parts of a 64-bit floating point number

A finite number is a sign, a natural significand and a power of two. Taking a number
apart is exact, so what has no exact counterpart in hardware (comparing with a decimal, the
remainder of a division) is decided on integers and put together once at the end.
-/

namespace PlanarDrive.Binary64

/-- The number `± significand * 2 ^ exponent`. -/
structure Parts where
  negative : Bool
  significand : Nat
  exponent : Int
  deriving DecidableEq, Repr

def parts (x : Binary64) : Parts :=
  let bits : Nat := x.bits.toNat
  let biased : Nat := bits / Nat.pow 2 52 % Nat.pow 2 11
  let fraction : Nat := bits % Nat.pow 2 52
  if biased = 0 then ⟨x.isNegative, fraction, -1074⟩
  else ⟨x.isNegative, fraction + Nat.pow 2 52, biased - 1075⟩

namespace Parts

def ratio (p : Parts) : Nat × Nat :=
  if p.exponent < 0 then (p.significand, Nat.pow 2 p.exponent.natAbs)
  else (p.significand * Nat.pow 2 p.exponent.natAbs, 1)

def significandAt (p : Parts) (exponent : Int) : Nat :=
  p.significand * Nat.pow 2 (p.exponent - exponent).toNat

end Parts

/-- The number `n * 2 ^ exponent`, for a significand and an exponent as the parts of a number have
them. Neither factor nor the product is rounded. -/
def ofScaled (n : Nat) (exponent : Int) : Binary64 :=
  ofNat n * powerOfTwo exponent

/-- The exponent of the power of two just above a positive magnitude. -/
def binaryOrder (x : Binary64) : Int :=
  x.parts.exponent + x.parts.significand.log2 + 1

end PlanarDrive.Binary64
