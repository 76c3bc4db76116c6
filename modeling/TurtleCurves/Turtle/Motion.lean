/-!
# The numbers that drive the turtle

Every grammar comes with three numbers for the turtle that draws its words: how far it turns, where
it faces at the start and how its step is scaled.
-/

namespace TurtleCurves

/-- The numbers of a grammar that the turtle needs. -/
structure TurtleMotion (α : Type) where
  /-- The angle of one turn, in degrees. -/
  rotationAngle : α
  /-- The heading at the start, in degrees. -/
  startingAngle : α
  /-- The factor by which a scaling symbol changes the step. -/
  scaleCoefficient : α
deriving DecidableEq, Repr

end TurtleCurves
