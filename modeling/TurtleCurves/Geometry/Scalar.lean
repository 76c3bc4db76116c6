/-!
# Scalars

The geometry of the turtle is written over any type with the operations of `Scalar`, each formula
in one fixed order of operations.  It runs over the double-precision floats; over an exact field
the same formulas can be reasoned about.

The constants 2 and 1/2 are spelled with 1, addition and division, which is exact in binary.
-/

namespace TurtleCurves

/-- The operations that the turtle needs of its numbers.  The comparisons are those of the numbers
themselves, so that for floats a NaN equals nothing and the two zeros are equal. -/
class Scalar (α : Type) extends Zero α, One α, Add α, Sub α, Mul α, Div α, Neg α, BEq α where
  sqrt : α → α
  sin : α → α
  cos : α → α
  abs : α → α
  /-- The angle in radians of an angle in degrees. -/
  radians : α → α
  /-- Strictly less. -/
  less : α → α → Bool
  /-- What a coordinate may differ from zero by and still count as zero. -/
  tolerance : α

namespace Scalar

variable {α : Type} [Scalar α]

/-- Two. -/
def two : α :=
  1 + 1

/-- One half. -/
def half : α :=
  1 / two

end Scalar

/-- The distance from 1 to the next larger double. -/
def floatTolerance : Float :=
  Float.ofBits 0x3CB0000000000000

/-- The double nearest to π. -/
def floatPi : Float :=
  3.141592653589793

instance : Scalar Float where
  zero := 0
  one := 1
  sqrt := Float.sqrt
  sin := Float.sin
  cos := Float.cos
  abs := Float.abs
  radians degrees := degrees * (floatPi / 180)
  less x y := x < y
  tolerance := floatTolerance

end TurtleCurves
