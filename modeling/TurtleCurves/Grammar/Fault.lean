import TurtleCurves.Symbol

/-!
# What can be wrong with a grammar

Each cause is a constructor of `GrammarFault` that carries what the cause is about; its wording is
`GrammarFault.message` and nowhere else.
-/

namespace TurtleCurves

/-- A floating-point value that is not a number of finite size. -/
inductive NonFinite
  | nan
  | infinite (negative : Bool)
deriving DecidableEq, Repr

namespace NonFinite

/-- Classifies a value; a finite one has no class. -/
def of? (x : Float) : Option NonFinite :=
  if x.isNaN then some nan
  else if x.isInf then some (infinite (x < 0))
  else none

/-- The three spellings. -/
def text : NonFinite → String
  | nan => "NaN"
  | infinite false => "inf"
  | infinite true => "-inf"

end NonFinite

/-- The numbers of a grammar that must be finite. -/
inductive Quantity
  | rotationAngle
  | startingAngle
  | scaleCoefficient
deriving DecidableEq, Repr

/-- The name of a number in messages. -/
def Quantity.name : Quantity → String
  | rotationAngle => "rotation angle"
  | startingAngle => "starting angle"
  | scaleCoefficient => "scale coefficient"

/-- Why a grammar is refused. -/
inductive GrammarFault
  /-- A clause of the rule text has no colon between head and body. -/
  | missingColon (clause : Word)
  /-- Nothing but blanks stands before the first colon of a clause. -/
  | emptyHead (clause : Word)
  /-- More than one symbol stands before the first colon of a clause. -/
  | longHead (head : Word)
  /-- Two different bodies are given for one head. -/
  | conflictingBodies (head : Symbol) (first second : Word)
  | negativeIterations (given : Int)
  /-- The number of copies of the axiom is zero or negative. -/
  | repeatBelowOne (given : Int)
  | notFinite (quantity : Quantity) (value : NonFinite)
  /-- The symbol at this position divides the step by a coefficient that is zero. -/
  | zeroCoefficient (index : Nat)
deriving DecidableEq, Repr

namespace GrammarFault

/-- What is wrong, in words. -/
def detail : GrammarFault → String
  | missingColon clause => s!"rule clause '{clause.text}' has no ':'"
  | emptyHead clause => s!"rule clause '{clause.text}' has an empty head"
  | longHead head => s!"rule head '{head.text}' must be a single symbol"
  | conflictingBodies head first second =>
      s!"symbol '{head}' has two rules: '{first.text}' and '{second.text}'"
  | negativeIterations given => s!"iteration count must be non-negative, got {given}"
  | repeatBelowOne given => s!"axiom multiplier must be at least 1, got {given}"
  | notFinite quantity value => s!"{quantity.name} must be finite, got {value.text}"
  | zeroCoefficient index =>
      s!"symbol {index} divides the step by a zero scale coefficient"

/-- The full message. -/
def message (fault : GrammarFault) : String :=
  s!"invalid grammar: {fault.detail}"

end GrammarFault

end TurtleCurves
