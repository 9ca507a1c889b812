/-!
# Double-precision numbers

A number is its 64 bits: a sign, eleven bits of exponent and fifty-two of fraction. Equality of values is
the numeric one (both zeros are equal, a NaN equals nothing), equality of bits is `DecidableEq`.
-/
namespace NativeBridge

/-- A binary64 number as its bit pattern. -/
structure Binary64 where
  bits : UInt64
deriving DecidableEq, Repr, Inhabited

namespace Binary64

def negative (x : Binary64) : Bool :=
  x.bits >>> 63 != 0

def exponentField (x : Binary64) : Nat :=
  ((x.bits >>> 52) &&& 0x7ff).toNat

def fraction (x : Binary64) : Nat :=
  (x.bits &&& 0xfffffffffffff).toNat

def isNaN (x : Binary64) : Bool :=
  x.exponentField == 0x7ff && x.fraction != 0

def isInfinite (x : Binary64) : Bool :=
  x.exponentField == 0x7ff && x.fraction == 0

def isZero (x : Binary64) : Bool :=
  x.exponentField == 0 && x.fraction == 0

/-- The numeric equality: a NaN differs from everything, the two zeros are equal. -/
def equal (x y : Binary64) : Bool :=
  !x.isNaN && !y.isNaN && (x.bits == y.bits || (x.isZero && y.isZero))

/-- The magnitude of a finite number as `m * 2 ^ (e - 1075)`, given as `(m, e)`. -/
def scaled (x : Binary64) : Nat × Nat :=
  if x.exponentField = 0 then (x.fraction, 1) else (x.fraction + 0x10000000000000, x.exponentField)

def toFloat (x : Binary64) : Float :=
  Float.ofBits x.bits

def ofFloat (x : Float) : Binary64 :=
  ⟨x.toBits⟩

/-- The nearest double to a 64-bit integer. -/
def ofInt (n : Int64) : Binary64 :=
  ofFloat n.toFloat

/-- The nearest single-precision number, held as the double of the same value. -/
def toSingle (x : Binary64) : Binary64 :=
  ofFloat x.toFloat.toFloat32.toFloat

/-- The nearest single-precision number to a 64-bit integer, rounded once. -/
def singleOfInt (n : Int64) : Binary64 :=
  ofFloat n.toFloat32.toFloat

def mul (x y : Binary64) : Binary64 :=
  ofFloat (x.toFloat * y.toFloat)

end Binary64
end NativeBridge
