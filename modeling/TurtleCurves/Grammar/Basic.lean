import Std.Data.ExtTreeSet
import TurtleCurves.Grammar.RuleSet
import TurtleCurves.Turtle.Motion

/-!
# Grammars

A `Grammar` is a validated system of replacement rules together with the numbers that a drawing of
its words needs.  A `GrammarRecord` is the unchecked record that a catalog holds: the rules are one
text, the counts may be negative and the numbers may be infinite.  `GrammarRecord.validate` checks
the record and builds the grammar.
-/

namespace TurtleCurves

/-- A grammar as it is written down. -/
structure GrammarRecord where
  /-- The word of which generation 0 is made. -/
  start : String
  /-- How many copies of that word form generation 0. -/
  startRepeat : Int64 := 1
  /-- `head : body` clauses separated by semicolons. -/
  rules : String := ""
  /-- The angle of one turn, in degrees. -/
  rotationAngle : Float
  /-- The number of generations. -/
  iterations : Int64
  /-- Symbols that are never replaced. -/
  skipped : String := ""
  /-- The heading at the start, in degrees. -/
  startingAngle : Float := 0
  /-- The factor by which a scaling symbol changes the step. -/
  coefficient : Float := 1
deriving DecidableEq, Repr

/-- A grammar that has been checked. -/
structure Grammar where
  /-- The word of which generation 0 is made. -/
  start : Word
  rules : RuleSet
  /-- The number of generations. -/
  iterationCount : Nat
  /-- How many copies of the start word form generation 0. -/
  startRepeat : Nat
  /-- Symbols that are never replaced. -/
  skipped : Std.ExtTreeSet Symbol
  /-- How the turtle draws the words of the grammar. -/
  motion : TurtleMotion Float
deriving DecidableEq

namespace Grammar

/-- The body that replaces `symbol`; a skipped symbol has none. -/
def production? (g : Grammar) (symbol : Symbol) : Option Word :=
  if g.skipped.contains symbol then none else g.rules.body? symbol

/-- Generation 0: copies of the start word. -/
def initialWord (g : Grammar) : Word :=
  Word.times g.startRepeat g.start

end Grammar

namespace GrammarRecord

/-- The number of generations, if it is not negative. -/
def checkIterations (s : GrammarRecord) : Except GrammarFault Nat :=
  if 0 ≤ s.iterations.toInt then .ok s.iterations.toInt.toNat
  else .error (.negativeIterations s.iterations.toInt)

/-- The number of copies of the start word, if there is at least one. -/
def checkRepeat (s : GrammarRecord) : Except GrammarFault Nat :=
  if 1 ≤ s.startRepeat.toInt then .ok s.startRepeat.toInt.toNat
  else .error (.repeatBelowOne s.startRepeat.toInt)

/-- Refuses a number that is not finite. -/
def checkFinite (quantity : Quantity) (value : Float) : Except GrammarFault Unit :=
  match NonFinite.of? value with
  | none => .ok ()
  | some kind => .error (.notFinite quantity kind)

/-- Checks the numbers of a record, counts first, and returns the two counts. -/
def checkNumbers (s : GrammarRecord) : Except GrammarFault (Nat × Nat) := do
  let iterationCount ← s.checkIterations
  let startRepeat ← s.checkRepeat
  checkFinite .rotationAngle s.rotationAngle
  checkFinite .startingAngle s.startingAngle
  checkFinite .scaleCoefficient s.coefficient
  return (iterationCount, startRepeat)

/-- Checks a record and builds its grammar.  The numbers are checked before the rules are read;
blanks in the list of skipped symbols do not count. -/
def validate (s : GrammarRecord) : Logged GrammarFault Grammar := do
  let counts ← Logged.ofExcept s.checkNumbers
  let rules ← RuleSet.parse s.rules.toList
  return {
    start := s.start.toList
    rules := rules
    iterationCount := counts.1
    startRepeat := counts.2
    skipped := Std.ExtTreeSet.ofList (Text.strip s.skipped.toList)
    motion := ⟨s.rotationAngle, s.startingAngle, s.coefficient⟩ }

end GrammarRecord

end TurtleCurves
