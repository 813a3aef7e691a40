/-!
# Single-precision values

A shader constant holds 32-bit binary floating-point components.  A component is kept as its bit
pattern, so that two components with the same pattern are the same value even when neither equals
itself as a number.  Arithmetic and comparison are those of the format; sign changes act on the
pattern alone and therefore also reach the values that are not numbers.
-/

namespace StageLink

/-- A 32-bit binary floating-point value, given by its bit pattern. -/
structure Single where
  /-- Sign bit, eight exponent bits, twenty-three fraction bits. -/
  bits : UInt32
  deriving DecidableEq

namespace Single

/-- The machine value with this pattern. -/
def toFloat32 (value : Single) : Float32 := Float32.ofBits value.bits

/-- The pattern of a machine value. -/
def ofFloat32 (value : Float32) : Single := ⟨value.toBits⟩

/-- Positive zero. -/
def zero : Single := ⟨0⟩

/-- Negative zero, the neutral element of addition. -/
def negativeZero : Single := ⟨0x80000000⟩

def one : Single := ⟨0x3f800000⟩

/-- The sign bit of the pattern. -/
def isNegative (value : Single) : Bool := value.bits &&& 0x80000000 != 0

def exponentField (value : Single) : Nat := (value.bits.toNat >>> 23) % 256

/-- The place above the fraction bits, which holds the leading bit of a normal significand. -/
def hiddenBit : Nat := Nat.pow 2 23

/-- The twenty-three fraction bits. -/
def fractionField (value : Single) : Nat := value.bits.toNat % hiddenBit

/-- Finite values have an exponent field below its maximum. -/
def isFinite (value : Single) : Bool := value.exponentField != 255

/-- Patterns with the maximal exponent and a fraction stand for no number. -/
def isNotNumber (value : Single) : Bool :=
  value.exponentField == 255 && value.fractionField != 0

/-- Flip the sign bit. -/
def negate (value : Single) : Single := ⟨value.bits ^^^ 0x80000000⟩

/-- Clear the sign bit. -/
def magnitude (value : Single) : Single := ⟨value.bits &&& 0x7fffffff⟩

/-- Rounded sum. -/
def add (left right : Single) : Single := ofFloat32 (left.toFloat32 + right.toFloat32)

/-- Rounded difference. -/
def subtract (left right : Single) : Single := ofFloat32 (left.toFloat32 - right.toFloat32)

/-- Rounded product. -/
def multiply (left right : Single) : Single := ofFloat32 (left.toFloat32 * right.toFloat32)

/-- Rounded quotient. -/
def divide (left right : Single) : Single := ofFloat32 (left.toFloat32 / right.toFloat32)

def squareRoot (value : Single) : Single := ofFloat32 value.toFloat32.sqrt

/-- One over the rounded square root. -/
def inverseSquareRoot (value : Single) : Single := one.divide value.squareRoot

/-- Greatest integral value not above the given one. -/
def floor (value : Single) : Single := ofFloat32 value.toFloat32.floor

/-- Numeric order, which holds of no pair with a value that is not a number. -/
def less (left right : Single) : Bool := left.toFloat32 < right.toFloat32

/-- Numeric order or equality. -/
def lessEqual (left right : Single) : Bool := left.toFloat32 <= right.toFloat32

/-- Numeric equality: the two zeros are equal, and a value that is not a number equals nothing. -/
def equal (left right : Single) : Bool := left.toFloat32 == right.toFloat32

@[simp]
theorem negate_negate (value : Single) : value.negate.negate = value := by
  simp only [negate, UInt32.xor_assoc, UInt32.xor_self, UInt32.xor_zero]

@[simp]
theorem magnitude_magnitude (value : Single) : value.magnitude.magnitude = value.magnitude := by
  simp [magnitude, UInt32.and_assoc]

end Single
end StageLink
