import TurtleCurves.Drawing.Polyline
import TurtleCurves.Json.Choice
import TurtleCurves.Json.Schema

/-!
# Drawings as JSON

Points are arrays of three numbers, primitives are names with a payload, drawings and polylines are
records.
-/

namespace TurtleCurves

open Json

namespace Vec3

/-- A point as an array of three numbers. -/
def toJson (v : Vec3 Float) : Json :=
  .array [ofFloat v.x, ofFloat v.y, ofFloat v.z]

/-- Reads an array of three numbers. -/
def decode : Decoder (Vec3 Float) := fun r => do
  match ← decodeNumbers 3 r with
  | [x, y, z] => .ok ⟨x, y, z⟩
  | _ => .error .malformed

end Vec3

namespace Primitive

/-- A primitive by its name and payload. -/
def toJson : Primitive Float → Json
  | moveTo p => .carrying "MoveTo" p.toJson
  | lineTo p => .carrying "LineTo" p.toJson
  | setColor c => .carrying "SetColor" (ofUInt64 c)
  | setScale s => .carrying "SetScale" (ofFloat s)

/-- Reads a primitive. -/
def decode : Decoder (Primitive Float) :=
  decodeChoice [
    .carrying "MoveTo" fun r => (Vec3.decode r).map moveTo,
    .carrying "LineTo" fun r => (Vec3.decode r).map lineTo,
    .carrying "SetColor" fun r => (decodeUInt64 r).map setColor,
    .carrying "SetScale" fun r => (decodeFloat r).map setScale]

end Primitive

/-- The field of a path. -/
def Drawing.schema : Schema (Drawing Float) where
  title := "DrawingPath"
  blank := .empty
  fields := [
    .of "primitives" .required (decodeList Primitive.decode) (fun ps => .array (ps.map (·.toJson)))
      (·.toList) fun _ ps => ⟨ps.toArray⟩]

/-- The fields of a polyline. -/
def Polyline.schema : Schema (Polyline Float) where
  title := "Polyline"
  blank := ⟨0, []⟩
  fields := [
    .of "color" .required decodeUInt64 ofUInt64 (·.color) fun l v => { l with color := v },
    .of "points" .required (decodeList Vec3.decode) (fun ps => .array (ps.map (·.toJson)))
      (·.points) fun l v => { l with points := v }]

end TurtleCurves
