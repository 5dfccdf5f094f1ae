/-!
# 64-bit floating point numbers

A number is its 64 bits. The hardware compares and computes. The sign is a bit of its own,
which also belongs to what is no number: negation, absolute value and the copying of a sign
work on this bit alone and keep all others.
-/

namespace PlanarDrive

/-- A sign bit, eleven bits of exponent and 52 bits of fraction. -/
structure Binary64 where
  bits : UInt64
  deriving DecidableEq, Repr, Inhabited

namespace Binary64

def ofFloat (x : Float) : Binary64 :=
  ⟨x.toBits⟩

def toFloat (x : Binary64) : Float :=
  Float.ofBits x.bits

instance : Add Binary64 :=
  ⟨fun x y => ofFloat (x.toFloat + y.toFloat)⟩

instance : Sub Binary64 :=
  ⟨fun x y => ofFloat (x.toFloat - y.toFloat)⟩

instance : Mul Binary64 :=
  ⟨fun x y => ofFloat (x.toFloat * y.toFloat)⟩

instance : Div Binary64 :=
  ⟨fun x y => ofFloat (x.toFloat / y.toFloat)⟩

instance : LT Binary64 :=
  ⟨fun x y => x.toFloat < y.toFloat⟩

instance : LE Binary64 :=
  ⟨fun x y => x.toFloat ≤ y.toFloat⟩

instance : DecidableLT Binary64 := fun x y =>
  inferInstanceAs (Decidable (x.toFloat < y.toFloat))

instance : DecidableLE Binary64 := fun x y =>
  inferInstanceAs (Decidable (x.toFloat ≤ y.toFloat))

/-- Both zeros are equal, and what is no number equals nothing. -/
instance : BEq Binary64 :=
  ⟨fun x y => x.toFloat == y.toFloat⟩

instance : OfScientific Binary64 :=
  ⟨fun coefficient negative exponent =>
    ofFloat (Float.ofScientific coefficient negative exponent)⟩

def ofNat (n : Nat) : Binary64 :=
  ofFloat (Float.ofNat n)

instance : NatCast Binary64 :=
  ⟨ofNat⟩

def ofInt (n : Int) : Binary64 :=
  ofFloat (Float.ofInt n)

def isNaN (x : Binary64) : Bool :=
  x.toFloat.isNaN

def isInfinite (x : Binary64) : Bool :=
  x.toFloat.isInf

def signBit : UInt64 :=
  0x8000000000000000

def isNegative (x : Binary64) : Bool :=
  x.bits &&& signBit != 0

/-- Both signs of a number that is none exist; this one is positive. -/
def notANumber : Binary64 :=
  ⟨0x7ff8000000000000⟩

def infinity : Binary64 :=
  ⟨0x7ff0000000000000⟩

instance : Neg Binary64 :=
  ⟨fun x => ⟨x.bits ^^^ signBit⟩⟩

def abs (x : Binary64) : Binary64 :=
  ⟨x.bits &&& ~~~signBit⟩

def copySign (x y : Binary64) : Binary64 :=
  ⟨x.abs.bits ||| (y.bits &&& signBit)⟩

/-- The number `2 ^ power`, for a power from -1074 up to 1023. Below -1022 the exponent is zero and
the power is a bit of the fraction. -/
def powerOfTwo (power : Int) : Binary64 :=
  if power < -1022 then ⟨UInt64.ofNat (Nat.pow 2 (power + 1074).toNat)⟩
  else ⟨UInt64.ofNat ((power + 1023).toNat * Nat.pow 2 52)⟩

def sqrt (x : Binary64) : Binary64 :=
  ofFloat x.toFloat.sqrt

def cos (x : Binary64) : Binary64 :=
  ofFloat x.toFloat.cos

def sin (x : Binary64) : Binary64 :=
  ofFloat x.toFloat.sin

@[simp] theorem neg_neg (x : Binary64) : - -x = x := by
  cases x with
  | mk bits =>
    show Binary64.mk (bits ^^^ signBit ^^^ signBit) = ⟨bits⟩
    rw [UInt64.xor_assoc, UInt64.xor_self, UInt64.xor_zero]

end Binary64

end PlanarDrive
