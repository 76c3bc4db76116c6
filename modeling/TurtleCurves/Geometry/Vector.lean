import TurtleCurves.Geometry.Scalar

/-!
# Vectors of space

Points and directions have three coordinates.  `lower` and `upper` are the componentwise minimum
and maximum in which the first vector gives way only to a smaller, respectively larger, coordinate;
with an unordered coordinate the second vector wins.
-/

namespace TurtleCurves

/-- A point or direction of space. -/
structure Vec3 (α : Type) where
  x : α
  y : α
  z : α
deriving DecidableEq, BEq, Repr

namespace Vec3

variable {α : Type} [Scalar α]

/-- The origin. -/
def origin : Vec3 α :=
  ⟨0, 0, 0⟩

/-- The unit vector of the first axis. -/
def unitX : Vec3 α :=
  ⟨1, 0, 0⟩

/-- The unit vector of the second axis. -/
def unitY : Vec3 α :=
  ⟨0, 1, 0⟩

/-- The unit vector of the third axis. -/
def unitZ : Vec3 α :=
  ⟨0, 0, 1⟩

/-- The componentwise sum. -/
def add (v w : Vec3 α) : Vec3 α :=
  ⟨v.x + w.x, v.y + w.y, v.z + w.z⟩

/-- Every coordinate times `k`. -/
def scale (v : Vec3 α) (k : α) : Vec3 α :=
  ⟨v.x * k, v.y * k, v.z * k⟩

/-- The scalar product, added from left to right. -/
def dot (v w : Vec3 α) : α :=
  v.x * w.x + v.y * w.y + v.z * w.z

/-- The vector product. -/
def cross (v w : Vec3 α) : Vec3 α :=
  ⟨v.y * w.z - w.y * v.z, v.z * w.x - w.z * v.x, v.x * w.y - w.x * v.y⟩

/-- The first number if it is less than the second, else the second. -/
def lesser (a b : α) : α :=
  if Scalar.less a b then a else b

/-- The first number if the second is less than it, else the second. -/
def greater (a b : α) : α :=
  if Scalar.less b a then a else b

/-- The componentwise `lesser`. -/
def lower (v w : Vec3 α) : Vec3 α :=
  ⟨lesser v.x w.x, lesser v.y w.y, lesser v.z w.z⟩

/-- The componentwise `greater`. -/
def upper (v w : Vec3 α) : Vec3 α :=
  ⟨greater v.x w.x, greater v.y w.y, greater v.z w.z⟩

end Vec3

end TurtleCurves
