import TurtleCurves.Drawing.Basic

/-!
# Polylines of a path

A polyline is a connected run of segments in one colour.  A `Tracer` walks along a path with the
pen, the colour and the run in progress; the run ends at every move with the pen up and at every
change to another colour, and is kept if it has at least two points.
-/

namespace TurtleCurves

/-- A connected run of points drawn in one colour. -/
structure Polyline (α : Type) where
  color : ColorIndex
  points : List (Vec3 α)
deriving DecidableEq, Repr

/-- Where the walk along a path has got to. -/
structure Tracer (α : Type) where
  color : ColorIndex
  pen : Vec3 α
  /-- The points of the run in progress, newest first. -/
  run : List (Vec3 α)
  /-- The finished polylines, newest first. -/
  done : List (Polyline α)

namespace Tracer

variable {α : Type}

/-- The pen at the origin, in colour 0, at the beginning of a run. -/
def start [Scalar α] : Tracer α :=
  ⟨0, Vec3.origin, [Vec3.origin], []⟩

/-- Ends the run in progress; a run of fewer than two points draws nothing and is dropped. -/
def flush (t : Tracer α) : Tracer α :=
  match t.run with
  | [] | [_] => { t with run := [] }
  | _ => { t with run := [], done := ⟨t.color, t.run.reverse⟩ :: t.done }

/-- Follows one primitive. -/
def step (t : Tracer α) : Primitive α → Tracer α
  | .moveTo p => { t.flush with pen := p, run := [p] }
  | .lineTo p => { t with pen := p, run := p :: t.run }
  | .setColor c => if c = t.color then t else { t.flush with color := c, run := [t.pen] }
  | .setScale _ => t

end Tracer

/-- The runs of segments of a path, in order. -/
def Drawing.polylines {α : Type} [Scalar α] (path : Drawing α) : List (Polyline α) :=
  (path.toList.foldl Tracer.step Tracer.start).flush.done.reverse

end TurtleCurves
