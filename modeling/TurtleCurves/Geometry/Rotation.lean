import TurtleCurves.Geometry.Vector

/-!
# Orientations

An orientation of the turtle is a quaternion with vector part `(x, y, z)` and real part `w`.  The
formulas are those of the usual Hamilton product; the order of the terms is part of them, because
over floats it decides the last bits.
-/

namespace TurtleCurves

/-- A quaternion. -/
structure Rotation (α : Type) where
  x : α
  y : α
  z : α
  w : α
deriving DecidableEq, BEq, Repr

namespace Rotation

variable {α : Type} [Scalar α]

/-- The orientation that turns nothing. -/
def identity : Rotation α :=
  ⟨0, 0, 0, 1⟩

/-- The turn by `angle` radians about the third axis. -/
def aboutZ (angle : α) : Rotation α :=
  ⟨0, 0, Scalar.sin (angle * Scalar.half), Scalar.cos (angle * Scalar.half)⟩

/-- The turn by `angle` radians about `axis`, a vector of length one. -/
def aboutAxis (axis : Vec3 α) (angle : α) : Rotation α :=
  let s := Scalar.sin (angle * Scalar.half)
  ⟨axis.x * s, axis.y * s, axis.z * s, Scalar.cos (angle * Scalar.half)⟩

/-- The product `p q`: turn by `q` in the frame that `p` has turned. -/
def mul (p q : Rotation α) : Rotation α where
  x := p.w * q.x + p.x * q.w + p.y * q.z - p.z * q.y
  y := p.w * q.y - p.x * q.z + p.y * q.w + p.z * q.x
  z := p.w * q.z + p.x * q.y - p.y * q.x + p.z * q.w
  w := p.w * q.w - p.x * q.x - p.y * q.y - p.z * q.z

/-- The square of the length. -/
def normSquared (q : Rotation α) : α :=
  q.x * q.x + q.y * q.y + q.z * q.z + q.w * q.w

/-- Every component times the inverse of the length. -/
def normalize (q : Rotation α) : Rotation α :=
  let k := 1 / Scalar.sqrt q.normSquared
  ⟨q.x * k, q.y * k, q.z * k, q.w * k⟩

/-- The image of a vector under the turn. -/
def apply (q : Rotation α) (v : Vec3 α) : Vec3 α :=
  let b : Vec3 α := ⟨q.x, q.y, q.z⟩
  ((v.scale (q.w * q.w - b.dot b)).add (b.scale (v.dot b * Scalar.two))).add
    ((b.cross v).scale (q.w * Scalar.two))

end Rotation

end TurtleCurves
