import TurtleCurves.Turtle.Basic
import TurtleCurves.Turtle.Motion
import TurtleCurves.Turtle.SymbolTable

/-!
# Options of a drawing

Whoever has a word drawn chooses the `DrawingOptions`.  Together with the numbers that the grammar
brings along they fix the `Settings`, the constants of one run of the turtle.
-/

namespace TurtleCurves

/-- What can be chosen for a drawing. -/
structure DrawingOptions (α : Type) where
  /-- The step length of a fresh turtle. -/
  unitLength : α
  /-- The number of palette entries that a colour change cycles through. -/
  colorCount : UInt64
  /-- The secondary angle, in degrees. -/
  secondaryAngle : α
  /-- The amount by which the step is lengthened or shortened. -/
  stepDelta : α
  /-- The largest number of saved turtles. -/
  maxStackDepth : UInt64
  /-- The largest number of symbols of a generation, if there is one. -/
  maxSymbols : Option UInt64
  /-- The meaning of the symbols. -/
  alphabet : Alphabet
deriving DecidableEq, Repr

namespace DrawingOptions

/-- A unit of ten, three colours, a secondary angle of ten degrees, step changes of a tenth, 1024
saved turtles, sixteen million symbols and the standard alphabet. -/
def standard : DrawingOptions Float :=
  ⟨10, 3, 10, 0.1, 1024, some 16000000, .standard⟩

/-- The ceiling on the symbols of a generation. -/
def ceiling {α : Type} (options : DrawingOptions α) : Option Nat :=
  options.maxSymbols.map UInt64.toNat

end DrawingOptions

/-- The constants of one run of the turtle, angles in radians. -/
structure Settings (α : Type) where
  unit : α
  angle : α
  secondary : α
  coefficient : α
  stepDelta : α
  startRotation : Rotation α
  /-- The number of palette entries, at least one. -/
  palette : UInt64
  maxStackDepth : Nat

/-- The constants of a run with the given options and numbers. -/
def Settings.of {α : Type} [Scalar α] (options : DrawingOptions α) (motion : TurtleMotion α) :
    Settings α where
  unit := options.unitLength
  angle := Scalar.radians motion.rotationAngle
  secondary := Scalar.radians options.secondaryAngle
  coefficient := motion.scaleCoefficient
  stepDelta := options.stepDelta
  startRotation := Rotation.facing motion.startingAngle
  palette := max 1 options.colorCount
  maxStackDepth := options.maxStackDepth.toNat

end TurtleCurves
