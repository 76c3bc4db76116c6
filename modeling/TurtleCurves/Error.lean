import TurtleCurves.Grammar.Fault
import TurtleCurves.Json.Problem
import TurtleCurves.Limit
import TurtleCurves.Drawing.Basic

/-!
# Errors

Everything that can stop the way from a grammar record to a drawing.
-/

namespace TurtleCurves

/-- Why there is no drawing. -/
inductive CurveError (α : Type)
  /-- The grammar is refused. -/
  | invalidGrammar (fault : GrammarFault)
  /-- The symbol at this position restores a turtle and none is saved; `drawn` is the path up to
  there. -/
  | unbalancedBranch (index : Nat) (drawn : Drawing α)
  /-- A ceiling would be crossed. -/
  | limitExceeded (excess : LimitExceeded)
  /-- The catalog has no grammar of this name. -/
  | unknownGrammar (name : String)
  /-- The catalog document is refused. -/
  | badCatalog (problem : Json.Problem)
deriving DecidableEq, Repr

/-- The wording of an error. -/
def CurveError.message {α : Type} : CurveError α → String
  | invalidGrammar fault => fault.message
  | unbalancedBranch index _ => s!"unbalanced branch: pop with empty stack at symbol {index}"
  | limitExceeded excess => excess.message
  | unknownGrammar name => s!"unknown grammar: {name}"
  | badCatalog problem => s!"catalog parse error: {problem.message}"

end TurtleCurves
