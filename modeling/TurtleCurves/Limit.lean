/-!
# Ceilings

Two resources are bounded: the symbols of a generation and the depth of the branch stack.
-/

namespace TurtleCurves

/-- A bounded resource. -/
inductive Resource
  /-- The number of symbols of a generation. -/
  | symbols
  /-- The number of turtles on the branch stack. -/
  | stackDepth
deriving DecidableEq, Repr

/-- A resource in messages. -/
def Resource.description : Resource → String
  | symbols => "expanded symbol count"
  | stackDepth => "branch stack depth"

/-- A ceiling that would have been crossed. -/
structure LimitExceeded where
  resource : Resource
  limit : Nat
  /-- The amount asked for, larger than the limit. -/
  requested : Nat
deriving DecidableEq, Repr

/-- The wording of a crossed ceiling. -/
def LimitExceeded.message (e : LimitExceeded) : String :=
  s!"{e.resource.description} limit exceeded: {e.requested} > {e.limit}"

/-- Lets a symbol count through if it is not above the ceiling; no ceiling lets every count
through. -/
def checkSymbols (ceiling : Option Nat) (count : Nat) : Except LimitExceeded Nat :=
  match ceiling with
  | none => .ok count
  | some limit => if limit < count then .error ⟨.symbols, limit, count⟩ else .ok count

end TurtleCurves
