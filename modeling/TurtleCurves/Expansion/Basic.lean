import TurtleCurves.Expansion.Tally
import TurtleCurves.Limit

/-!
# Expansion under a ceiling

`Grammar.projectedLength` projects the length of every generation from symbol counts and stops at
the first one above the ceiling.  `Grammar.expand` does that first and builds words only if every
generation fits.  Both stop as soon as nothing can change any more: the projection when the counts
repeat, the expansion when no symbol has a production.
-/

namespace TurtleCurves

namespace Grammar

/-- Projects a generation with the counts `tally` and at most `n` generations after it.  The answer
is the projected length of the last. -/
def projectFrom (g : Grammar) (ceiling : Option Nat) : Nat → Tally → Except LimitExceeded Nat
  | 0, tally => checkSymbols ceiling tally.total
  | n + 1, tally =>
      match checkSymbols ceiling tally.total with
      | .error e => .error e
      | .ok length =>
          let next := g.nextTally tally
          if next = tally then .ok length else g.projectFrom ceiling n next

/-- Makes sure that every generation fits under the ceiling and returns the projected length of the
last one. -/
def projectedLength (g : Grammar) (ceiling : Option Nat) : Except LimitExceeded Nat :=
  g.projectFrom ceiling g.iterationCount g.initialTally

/-- Builds at most `n` generations after generation `k`, the word `w`, and appends a record for
each to `records`. -/
def expandFrom (g : Grammar) :
    Nat → Nat → Word → Array LogRecord → Word × Array LogRecord
  | 0, _, w, records => (w, records)
  | n + 1, k, w, records =>
      if g.hasProduction w then
        g.expandFrom n (k + 1) (g.step w) (records.push (.generation (k + 1) (g.stepBytes w)))
      else (w, records.push (.exhausted (k + 1)))

/-- The last generation, provided that all generations fit under the ceiling. -/
def expand (g : Grammar) (ceiling : Option Nat) : Logged LimitExceeded Word :=
  match g.projectedLength ceiling with
  | .error e => Logged.fail e
  | .ok projected =>
      let run := g.expandFrom g.iterationCount 0 g.initialWord #[]
      ⟨.ok run.1, .projection g.iterationCount projected :: run.2.toList⟩

end Grammar

end TurtleCurves
