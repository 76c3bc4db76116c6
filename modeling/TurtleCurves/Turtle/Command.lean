/-!
# Turtle commands

What a symbol can mean to the turtle.  A command with a payload scales its amount by it; the
built-in alphabets use one and minus one.
-/

namespace TurtleCurves

/-- The commands of the turtle. -/
inductive Command (α : Type)
  /-- Step forward with the pen down. -/
  | draw
  /-- Step forward by the step times the coefficient with the pen down. -/
  | drawScaled
  /-- Step forward with the pen up. -/
  | move
  /-- Face the starting direction again, then draw. -/
  | drawFromStart
  /-- Step along the third axis of space with the pen down. -/
  | lift (factor : α)
  /-- Draw forward and straight back. -/
  | roundTrip
  /-- Yaw by the grammar's angle. -/
  | yaw (factor : α)
  /-- Yaw by the secondary angle. -/
  | yawSecondary (factor : α)
  /-- Pitch by the grammar's angle. -/
  | pitch (factor : α)
  /-- Roll by the grammar's angle. -/
  | roll (factor : α)
  /-- Flip the direction of all later turns. -/
  | reverseTurns
  /-- Multiply the step by the coefficient. -/
  | scale
  /-- Divide the step by the coefficient. -/
  | shrink
  /-- Add a multiple of the configured amount to the step. -/
  | stepDelta (factor : α)
  /-- Take the next colour of the palette. -/
  | colorToggle
  /-- Save the turtle on the stack. -/
  | push
  /-- Take the turtle saved last from the stack. -/
  | pop
  /-- Do nothing. -/
  | ignore
deriving DecidableEq, Repr

end TurtleCurves
