import TurtleCurves.Geometry.Vector

/-!
# Drawing paths

A path is a sequence of primitives: pen moves with the pen up or down, changes of colour and
changes of scale.  How points map to pixels and colour indices to colours is left to whoever draws
the path.
-/

namespace TurtleCurves

/-- An entry of a palette that is kept elsewhere. -/
abbrev ColorIndex := UInt64

/-- One drawing instruction. -/
inductive Primitive (α : Type)
  /-- Lift the pen and place it at the point. -/
  | moveTo (point : Vec3 α)
  /-- Draw a straight segment from where the pen is to the point. -/
  | lineTo (point : Vec3 α)
  /-- Take another colour. -/
  | setColor (color : ColorIndex)
  /-- The step length relative to the unit length from here on. -/
  | setScale (scale : α)
deriving DecidableEq, BEq, Repr

namespace Primitive

variable {α : Type}

/-- The pen position that a primitive leads to. -/
def point? : Primitive α → Option (Vec3 α)
  | moveTo p | lineTo p => some p
  | setColor _ | setScale _ => none

/-- The primitive draws a segment. -/
def isLine : Primitive α → Bool
  | lineTo _ => true
  | _ => false

end Primitive

/-- Primitives in the order in which they were emitted. -/
structure Drawing (α : Type) where
  primitives : Array (Primitive α)
deriving DecidableEq, Repr

/-- The two opposite corners of a box with sides along the axes. -/
structure Box (α : Type) where
  low : Vec3 α
  high : Vec3 α
deriving DecidableEq, Repr

namespace Drawing

variable {α : Type}

/-- The path without primitives. -/
def empty : Drawing α :=
  ⟨#[]⟩

/-- The path with one more primitive at its end. -/
def push (path : Drawing α) (primitive : Primitive α) : Drawing α :=
  ⟨path.primitives.push primitive⟩

/-- The path with more primitives at its end. -/
def append (path : Drawing α) (primitives : List (Primitive α)) : Drawing α :=
  primitives.foldl push path

/-- The primitives as a list. -/
def toList (path : Drawing α) : List (Primitive α) :=
  path.primitives.toList

/-- The number of primitives. -/
def size (path : Drawing α) : Nat :=
  path.primitives.size

/-- There is no primitive. -/
def isEmpty (path : Drawing α) : Bool :=
  path.primitives.isEmpty

/-- The number of segments. -/
def lineCount (path : Drawing α) : Nat :=
  path.toList.countP Primitive.isLine

/-- The pen positions, drawn to or not, in order. -/
def points (path : Drawing α) : List (Vec3 α) :=
  path.toList.filterMap Primitive.point?

@[simp] theorem toList_empty : (empty : Drawing α).toList = [] := rfl

@[simp] theorem toList_push (path : Drawing α) (primitive : Primitive α) :
    (path.push primitive).toList = path.toList ++ [primitive] := by
  simp [push, toList]

/-- Primitives are added at the end, in their order. -/
@[simp] theorem toList_append (path : Drawing α) (primitives : List (Primitive α)) :
    (path.append primitives).toList = path.toList ++ primitives := by
  unfold append
  induction primitives generalizing path with
  | nil => simp
  | cons p ps ih => simp [ih]

/-- Paths with the same primitives are equal. -/
theorem ext_toList {p q : Drawing α} (h : p.toList = q.toList) : p = q := by
  cases p; cases q
  exact congrArg mk (Array.toList_inj.1 h)

variable [Scalar α]

/-- The box around the box and one more point. -/
def growBox (box : Option (Box α)) (p : Vec3 α) : Option (Box α) :=
  match box with
  | none => some ⟨p, p⟩
  | some b => some ⟨b.low.lower p, b.high.upper p⟩

/-- The box around all pen positions, if there is one.  Along an axis where a position is
unordered the box starts again at the next position. -/
def bounds (path : Drawing α) : Option (Box α) :=
  path.points.foldl growBox none

/-- Some pen position lies off the plane of the first two axes. -/
def leavesPlane (path : Drawing α) : Bool :=
  path.points.any fun p => Scalar.less Scalar.tolerance (Scalar.abs p.z)

end Drawing

end TurtleCurves
