import PlanarDrive.Fault

/-!
# The numbers that positions are measured in

Geometry and motion are written once, over any type with the operations of `Scalar`.
Programs run on 64-bit floating point numbers; an ordered field is an instance as well.
Operations that have no value at some arguments are refused there with a `Fault`. The text
of a number is the short one that stands where a call is named.
-/

namespace PlanarDrive

/-- Numbers with the elementary functions that plane geometry needs. No law is assumed. -/
class Scalar (α : Type) where
  [toAdd : Add α]
  [toSub : Sub α]
  [toMul : Mul α]
  [toDiv : Div α]
  [toNeg : Neg α]
  [toLT : LT α]
  [toLE : LE α]
  [toBEq : BEq α]
  [toNatCast : NatCast α]
  [toOfScientific : OfScientific α]
  [decidableLT : DecidableLT α]
  [decidableLE : DecidableLE α]
  pi : α
  abs : α → α
  copySign : α → α → α
  cos : α → α
  sin : α → α
  sqrt : α → α
  hypot : α → α → α
  modulo : α → α → α
  roundEven : α → Int
  isNaN : α → Bool
  isInfinite : α → Bool
  text : α → String

namespace Scalar

variable {α : Type} [Scalar α]

-- A type that has these operations already keeps its own.
instance (priority := low) : Add α := toAdd
instance (priority := low) : Sub α := toSub
instance (priority := low) : Mul α := toMul
instance (priority := low) : Div α := toDiv
instance (priority := low) : Neg α := toNeg
instance (priority := low) : LT α := toLT
instance (priority := low) : LE α := toLE
instance (priority := low) : BEq α := toBEq
instance (priority := low) : NatCast α := toNatCast
instance (priority := low) : OfScientific α := toOfScientific
instance (priority := low) : DecidableLT α := decidableLT
instance (priority := low) : DecidableLE α := decidableLE

def isFinite (x : α) : Bool :=
  !isNaN x && !isInfinite x

/-- The first number, unless the second is smaller. -/
def least (a b : α) : α :=
  if b < a then b else a

def greatest (a b : α) : α :=
  if a < b then b else a

def radians (degrees : α) : α :=
  degrees * (pi / 180.0)

def degrees (radians : α) : α :=
  radians * (180.0 / pi)

def divide (a b : α) : Except (Fault α) α :=
  if b == 0.0 then .error .divisionByZero else .ok (a / b)

def squareRoot (x : α) : Except (Fault α) α :=
  if x < 0.0 then .error .outOfDomain else .ok (sqrt x)

def nearest (x : α) : Except (Fault α) Int :=
  if isNaN x then .error .notANumber
  else if isInfinite x then .error .tooLarge
  else .ok (roundEven x)

/-- The unit vector at an angle; an infinite angle points nowhere. -/
def direction (angle : α) : Except (Fault α) (α × α) :=
  if isInfinite angle then .error .outOfDomain else .ok (cos angle, sin angle)

end Scalar

end PlanarDrive
