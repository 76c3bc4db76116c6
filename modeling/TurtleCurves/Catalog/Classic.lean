import TurtleCurves.Catalog.Basic

/-!
# The built-in catalog

Twelve classic curves.
-/

namespace TurtleCurves

namespace Catalog

/-- The records of the built-in catalog. -/
def classicEntries : List (String × GrammarRecord) := [
  ("Koch curve",
    { start := "F", rules := "F : F+F-F-F+F", rotationAngle := 90, iterations := 3 }),
  ("Koch snowflake",
    { start := "F--F--F", rules := "F : F+F--F+F", rotationAngle := 60, iterations := 3 }),
  ("Dragon curve",
    { start := "FX", rules := "X : X+YF+ ; Y : -FX-Y", rotationAngle := 90, iterations := 10 }),
  ("Levy C curve",
    { start := "F", rules := "F : +F--F+", rotationAngle := 45, iterations := 8 }),
  ("Sierpinski triangle",
    { start := "F-G-G", rules := "F : F-G+F+G-F ; G : GG", rotationAngle := 120,
      iterations := 5 }),
  ("Hilbert curve",
    { start := "L", rules := "L : +RF-LFL-FR+ ; R : -LF+RFR+FL-", rotationAngle := 90,
      iterations := 5 }),
  ("Fractal plant",
    { start := "X", rules := "X : F+[[X]-X]-F[-FX]+X ; F : FF", rotationAngle := 25,
      startingAngle := 90, iterations := 5 }),
  ("Colored bush",
    { start := "F", rules := "F : FF+[.+F-F-F]-[.-F+F+F]", rotationAngle := 22.5,
      startingAngle := 90, iterations := 4 }),
  ("Polygon",
    { start := "F+.", startRepeat := 12, rotationAngle := 30, iterations := 1 }),
  ("Spiral",
    { start := "F+*", startRepeat := 90, rotationAngle := 20, iterations := 1,
      coefficient := 1.02 }),
  ("Repetition",
    { start := "[F+F+F+F]+.", startRepeat := 18, rotationAngle := 20, iterations := 1 }),
  ("Frozen arms",
    { start := "F+F+F+F", rules := "F : F+X-F ; X : XX ; + : +F", skipped := "+",
      rotationAngle := 90, iterations := 3 })]

/-- The built-in catalog. -/
def classic : Catalog :=
  ofList classicEntries

end Catalog

end TurtleCurves
