import TurtleCurves.Expansion.Basic
import TurtleCurves.Turtle.Interpretation

/-!
# Rendering

A grammar is rendered by expanding it under the ceiling of the options and interpreting the last
generation with the alphabet of the options.
-/

namespace TurtleCurves

/-- The drawing of a grammar. -/
def Grammar.render (g : Grammar) (options : DrawingOptions Float) :
    Logged (CurveError Float) (Drawing Float) := do
  let w ← (g.expand options.ceiling).mapError .limitExceeded
  let path ← Logged.ofExcept ((Interpreter.ofOptions options).interpret w g.motion)
  Logged.write (.rendered w.length path.lineCount path.size)
  return path

/-- The drawing of a grammar record. -/
def GrammarRecord.render (s : GrammarRecord) (options : DrawingOptions Float) :
    Logged (CurveError Float) (Drawing Float) := do
  let g ← s.validate.mapError .invalidGrammar
  g.render options

end TurtleCurves
