import PlanarDrive.Binary64.Distance
import PlanarDrive.Decimal.Layout
import PlanarDrive.Scalar

/-!
# Floating point numbers as scalars

The hardware gives sums, products, quotients, roots and the trigonometric functions. The
remainder `modulo` and the integer `roundEven` are worked out on integers and are exact. A
call names its numbers to six significant digits.
-/

namespace PlanarDrive.Binary64

/-- The remainder of the flooring division: it has the sign of the divisor. -/
def modulo (x y : Binary64) : Binary64 :=
  if x.isNaN || y.isNaN || x.isInfinite || y == 0.0 then notANumber
  else
    let p := parts x
    let q := parts y
    let exponent := min p.exponent q.exponent
    let rest :=
      if y.isInfinite then x.abs
      else ofScaled (p.significandAt exponent % q.significandAt exponent) exponent
    if rest == 0.0 then copySign 0.0 y
    else
      let signed := copySign rest x
      if p.negative == q.negative then signed else signed + y

def roundEven (x : Binary64) : Int :=
  let p := parts x
  let (n, d) := p.ratio
  if p.negative then -(roundQuotient n d : Int) else roundQuotient n d

instance : Scalar Binary64 where
  pi := 3.141592653589793
  abs := abs
  copySign := copySign
  cos := cos
  sin := sin
  sqrt := sqrt
  hypot := hypot
  modulo := modulo
  roundEven := roundEven
  isNaN := isNaN
  isInfinite := isInfinite
  text x := String.ofList (Decimal.general 6 x)

end PlanarDrive.Binary64
