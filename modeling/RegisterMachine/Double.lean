namespace RegisterMachine

/-- A number in 64-bit binary floating point, kept as its bit pattern. -/
structure Double where
  bits : UInt64
  deriving DecidableEq, Repr

/-- How a number compares with zero; a number that is not comparable is unordered. -/
inductive Sign
  | negative
  | zero
  | positive
  | unordered
  deriving DecidableEq, Repr

/-- The sign of an integer. -/
def Sign.ofInt (n : Int) : Sign :=
  if n < 0 then .negative else if n = 0 then .zero else .positive

namespace Double

/-- The value of the sign bit. -/
def signBit : Nat := 0x8000000000000000

/-- The value of the bit that numbers other than the smallest ones have in front of their
fraction. -/
def hiddenBit : Nat := 0x10000000000000

/-- The minus sign, which zero and numbers that are not comparable carry too. -/
def hasMinus (d : Double) : Bool := signBit ≤ d.bits.toNat

/-- The eleven bits that select the power of two. -/
def exponentField (d : Double) : Nat := d.bits.toNat / hiddenBit % 2048

/-- The lowest 52 bits. -/
def fraction (d : Double) : Nat := d.bits.toNat % hiddenBit

/-- Not a number: the highest power of two with a fraction. -/
def isNaN (d : Double) : Bool := d.exponentField = 2047 ∧ d.fraction ≠ 0

/-- Infinity of either sign: the highest power of two without a fraction. -/
def isInfinite (d : Double) : Bool := d.exponentField = 2047 ∧ d.fraction = 0

/-- Zero of either sign. -/
def isZero (d : Double) : Bool := d.exponentField = 0 ∧ d.fraction = 0

/-- The comparison with zero, in which both zeros are zero. -/
def sign (d : Double) : Sign :=
  if d.isNaN then .unordered
  else if d.isZero then .zero
  else if d.hasMinus then .negative
  else .positive

/-- A finite number is, up to its sign, `significand * 2 ^ exponent`. -/
def significand (d : Double) : Nat :=
  if d.exponentField = 0 then d.fraction else hiddenBit + d.fraction

/-- The power of two of a finite number, counted from the last bit of its significand. -/
def exponent (d : Double) : Int :=
  if d.exponentField = 0 then -1074 else (d.exponentField : Int) - 1075

/-- The floating-point number with the bits. -/
def toFloat (d : Double) : Float := Float.ofBits d.bits

/-- The bits of a floating-point number. -/
def ofFloat (x : Float) : Double := ⟨x.toBits⟩

/-- The double nearest to an integer. -/
def ofInt (n : Int) : Double := ofFloat (Float.ofInt n)

/-- The same number with the opposite sign bit. -/
def negate (d : Double) : Double := ⟨d.bits ^^^ 0x8000000000000000⟩

/-- The bits of positive infinity. -/
def infinity : Double := ⟨0x7ff0000000000000⟩

/-- The bits of the value that is no number. -/
def nan : Double := ⟨0x7ff8000000000000⟩

/-- The sum, rounded to the nearest double. -/
def add (a b : Double) : Double := ofFloat (a.toFloat + b.toFloat)

/-- The difference, rounded to the nearest double. -/
def sub (a b : Double) : Double := ofFloat (a.toFloat - b.toFloat)

/-- The product, rounded to the nearest double. -/
def mul (a b : Double) : Double := ofFloat (a.toFloat * b.toFloat)

/-- The quotient, rounded to the nearest double. -/
def div (a b : Double) : Double := ofFloat (a.toFloat / b.toFloat)

end Double

end RegisterMachine
