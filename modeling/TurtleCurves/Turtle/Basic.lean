import TurtleCurves.Geometry.Rotation
import TurtleCurves.Drawing.Basic

/-!
# The turtle

The turtle has a position, an orientation, a step length, a colour and a sign that multiplies its
turns.  It faces the first axis of its own frame; turns about its third axis keep a planar drawing
in the plane.
-/

namespace TurtleCurves

/-- The state of the turtle. -/
structure Turtle (α : Type) where
  position : Vec3 α
  rotation : Rotation α
  /-- The distance covered by one step. -/
  stepLength : α
  color : ColorIndex
  /-- One or minus one; multiplies every turn. -/
  turnSign : α
deriving DecidableEq, BEq, Repr

/-- The orientation that faces `degrees` counter-clockwise from the first axis. -/
def Rotation.facing {α : Type} [Scalar α] (degrees : α) : Rotation α :=
  Rotation.aboutZ (Scalar.radians degrees)

namespace Turtle

variable {α : Type} [Scalar α]

/-- A turtle at the origin with a step of one, facing the first axis. -/
def atRest : Turtle α :=
  ⟨Vec3.origin, Rotation.identity, 1, 0, 1⟩

/-- A turtle at the origin that faces `degrees`, with the given step. -/
def facing (degrees stepLength : α) : Turtle α :=
  { atRest with rotation := Rotation.facing degrees, stepLength := stepLength }

/-- The direction that the turtle faces. -/
def heading (t : Turtle α) : Vec3 α :=
  t.rotation.apply Vec3.unitX

/-- The point `length` ahead. -/
def ahead (t : Turtle α) (length : α) : Vec3 α :=
  t.position.add (t.heading.scale length)

/-- Turns about an axis of the turtle's own frame, by radians. -/
def turn (t : Turtle α) (axis : Vec3 α) (angle : α) : Turtle α :=
  { t with rotation := (t.rotation.mul (Rotation.aboutAxis axis angle)).normalize }

/-- Rolls about the heading. -/
def roll (t : Turtle α) (angle : α) : Turtle α :=
  t.turn Vec3.unitX angle

/-- Pitches about the second axis of the turtle's frame. -/
def pitch (t : Turtle α) (angle : α) : Turtle α :=
  t.turn Vec3.unitY angle

/-- Yaws about the third axis of the turtle's frame. -/
def yaw (t : Turtle α) (angle : α) : Turtle α :=
  t.turn Vec3.unitZ angle

/-- The angle in degrees of an angle in radians. -/
def degreesOf (radians : Float) : Float :=
  radians * (180 / floatPi)

/-- Moves a value into the range from -1 to 1; a NaN stays. -/
def clampUnit (x : Float) : Float :=
  if x < -1 then -1 else if 1 < x then 1 else x

/-- The heading as yaw and pitch in degrees; yaw is measured in the plane of the first two axes
from the first. -/
def yawPitch (t : Turtle Float) : Float × Float :=
  let h := t.heading
  (degreesOf (Float.atan2 h.y h.x), degreesOf (Float.asin (clampUnit h.z)))

end Turtle

end TurtleCurves
