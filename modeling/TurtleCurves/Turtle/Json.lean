import TurtleCurves.Drawing.Json
import TurtleCurves.Turtle.Options

/-!
# Turtles, commands and options as JSON

Orientations are arrays of four numbers, commands and alphabets are names, the turtle, its numbers
and the options of a drawing are records.
-/

namespace TurtleCurves

open Json

namespace Rotation

/-- An orientation as an array of four numbers. -/
def toJson (q : Rotation Float) : Json :=
  .array [ofFloat q.x, ofFloat q.y, ofFloat q.z, ofFloat q.w]

/-- Reads an array of four numbers. -/
def decode : Decoder (Rotation Float) := fun r => do
  match ← decodeNumbers 4 r with
  | [x, y, z, w] => .ok ⟨x, y, z, w⟩
  | _ => .error .malformed

end Rotation

namespace Alphabet

/-- The name of an alphabet. -/
def jsonName : Alphabet → String
  | standard => "Standard"
  | classic => "Classic"

/-- An alphabet by its name. -/
def toJson (a : Alphabet) : Json :=
  .text a.jsonName

/-- Reads the name of an alphabet. -/
def decode : Decoder Alphabet :=
  decodeChoice [.plain "Standard" .standard, .plain "Classic" .classic]

end Alphabet

/-- The fields of the options of a drawing. -/
def DrawingOptions.schema : Schema (DrawingOptions Float) where
  title := "RenderConfig"
  blank := { DrawingOptions.standard with maxSymbols := none }
  fields := [
    .of "unit_length" .required decodeFloat ofFloat (·.unitLength)
      fun c v => { c with unitLength := v },
    .of "color_count" .required decodeUInt64 ofUInt64 (·.colorCount)
      fun c v => { c with colorCount := v },
    .of "secondary_angle" .required decodeFloat ofFloat (·.secondaryAngle)
      fun c v => { c with secondaryAngle := v },
    .of "step_delta" .required decodeFloat ofFloat (·.stepDelta)
      fun c v => { c with stepDelta := v },
    .of "max_stack_depth" .required decodeUInt64 ofUInt64 (·.maxStackDepth)
      fun c v => { c with maxStackDepth := v },
    .of "max_symbols" .optionalMember (decodeOption decodeUInt64) (Json.ofOption ofUInt64)
      (·.maxSymbols) fun c v => { c with maxSymbols := v },
    .of "profile" .required Alphabet.decode Alphabet.toJson (·.alphabet)
      fun c v => { c with alphabet := v }]

/-- The fields of the numbers of a grammar. -/
def TurtleMotion.schema : Schema (TurtleMotion Float) where
  title := "TurtleParams"
  blank := ⟨0, 0, 1⟩
  fields := [
    .of "rotation_angle" .required decodeFloat ofFloat (·.rotationAngle)
      fun p v => { p with rotationAngle := v },
    .of "starting_angle" .required decodeFloat ofFloat (·.startingAngle)
      fun p v => { p with startingAngle := v },
    .of "scale_coefficient" .required decodeFloat ofFloat (·.scaleCoefficient)
      fun p v => { p with scaleCoefficient := v }]

/-- The fields of a turtle. -/
def Turtle.schema : Schema (Turtle Float) where
  title := "TurtleState"
  blank := Turtle.atRest
  fields := [
    .of "position" .required Vec3.decode Vec3.toJson (·.position)
      fun t v => { t with position := v },
    .of "rotation" .required Rotation.decode Rotation.toJson (·.rotation)
      fun t v => { t with rotation := v },
    .of "step_length" .required decodeFloat ofFloat (·.stepLength)
      fun t v => { t with stepLength := v },
    .of "pen_color_index" .required decodeUInt64 ofUInt64 (·.color)
      fun t v => { t with color := v },
    .of "turn_sign" .required decodeFloat ofFloat (·.turnSign)
      fun t v => { t with turnSign := v }]

namespace Command

/-- A command by its name and its payload, if it has one. -/
def toJson : Command Float → Json
  | draw => .text "Draw"
  | drawScaled => .text "DrawScaled"
  | move => .text "Move"
  | drawFromStart => .text "DrawFromStart"
  | lift s => .carrying "Lift" (ofFloat s)
  | roundTrip => .text "RoundTrip"
  | yaw s => .carrying "Yaw" (ofFloat s)
  | yawSecondary s => .carrying "YawSecondary" (ofFloat s)
  | pitch s => .carrying "Pitch" (ofFloat s)
  | roll s => .carrying "Roll" (ofFloat s)
  | reverseTurns => .text "ReverseTurns"
  | scale => .text "Scale"
  | shrink => .text "Shrink"
  | stepDelta s => .carrying "StepDelta" (ofFloat s)
  | colorToggle => .text "ColorToggle"
  | push => .text "Push"
  | pop => .text "Pop"
  | ignore => .text "Ignore"

/-- A command with a number as payload. -/
def numbered (name : String) (command : Float → Command Float) : Variant (Command Float) :=
  .carrying name fun r => (decodeFloat r).map command

/-- The names of the commands. -/
def variants : List (Variant (Command Float)) := [
  .plain "Draw" draw, .plain "DrawScaled" drawScaled, .plain "Move" move,
  .plain "DrawFromStart" drawFromStart, numbered "Lift" lift, .plain "RoundTrip" roundTrip,
  numbered "Yaw" yaw, numbered "YawSecondary" yawSecondary, numbered "Pitch" pitch,
  numbered "Roll" roll, .plain "ReverseTurns" reverseTurns, .plain "Scale" scale,
  .plain "Shrink" shrink, numbered "StepDelta" stepDelta, .plain "ColorToggle" colorToggle,
  .plain "Push" push, .plain "Pop" pop, .plain "Ignore" ignore]

/-- Reads a command. -/
def decode : Decoder (Command Float) :=
  decodeChoice variants

end Command

end TurtleCurves
