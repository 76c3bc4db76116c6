import TurtleCurves.Grammar.Basic
import TurtleCurves.Json.Schema

/-!
# Grammars as JSON

A grammar record has eight fields, of which only the start word, the angle and the number of
generations are required.  A grammar is written for inspection and read only through its record.
-/

namespace TurtleCurves

open Json

/-- The fields of a grammar record. -/
def GrammarRecord.schema : Schema GrammarRecord where
  title := "GrammarSource"
  blank := { start := "", rotationAngle := 0, iterations := 0 }
  fields := [
    .of "axiom" .required decodeText .text (·.start) fun s v => { s with start := v },
    .of "axiom_multiplier" .optional decodeInt64 ofInt64 (·.startRepeat)
      fun s v => { s with startRepeat := v },
    .of "rules" .optional decodeText .text (·.rules) fun s v => { s with rules := v },
    .of "rotation_angle" .required decodeFloat ofFloat (·.rotationAngle)
      fun s v => { s with rotationAngle := v },
    .of "nb_iter" .required decodeInt64 ofInt64 (·.iterations)
      fun s v => { s with iterations := v },
    .of "skipped" .optional decodeText .text (·.skipped) fun s v => { s with skipped := v },
    .of "starting_angle" .optional decodeFloat ofFloat (·.startingAngle)
      fun s v => { s with startingAngle := v },
    .of "coeff" .optional decodeFloat ofFloat (·.coefficient)
      fun s v => { s with coefficient := v }]

/-- A rule table as an object from heads to bodies. -/
def RuleSet.toJson (table : RuleSet) : Json :=
  .object [("rules", .object (table.toList.map fun r => (r.1.toString, .text r.2.text)))]

/-- A grammar for inspection; grammars are read only through their records. -/
def Grammar.toJson (g : Grammar) : Json :=
  .object [
    ("axiom", .text g.start.text),
    ("rules", g.rules.toJson),
    ("rotation_angle", ofFloat g.motion.rotationAngle),
    ("starting_angle", ofFloat g.motion.startingAngle),
    ("iteration_count", .integer g.iterationCount),
    ("axiom_repeat", .integer g.startRepeat),
    ("skipped", .array (g.skipped.toList.map fun c => .text c.toString)),
    ("scale_coefficient", ofFloat g.motion.scaleCoefficient)]

end TurtleCurves
