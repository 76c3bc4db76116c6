import TurtleCurves.Grammar.Generation

/-!
# Symbol counts of generations

How often each symbol occurs in a generation can be computed from the counts of the generation
before it, without building a word.  Counts stop at `countCap`, the largest number of 128 bits, and
a symbol that does not occur has no entry, so that equal tallies mean equal counts.

The order in which the entries of a tally are passed on is that of the list handed to
`Grammar.passOn`.
-/

namespace TurtleCurves

/-- The largest count, `2 ^ 128 - 1`. -/
def countCap : Nat :=
  0xFFFFFFFFFFFFFFFFFFFFFFFFFFFFFFFF

/-- Addition that stops at the cap. -/
def cappedAdd (m n : Nat) : Nat :=
  min countCap (m + n)

/-- The number of occurrences of each symbol that occurs. -/
abbrev Tally := Std.ExtTreeMap Symbol Nat

namespace Tally

/-- Counts `n` more occurrences of `symbol`. -/
def add (tally : Tally) (symbol : Symbol) (n : Nat) : Tally :=
  tally.alter symbol fun old => some (cappedAdd (old.getD 0) n)

/-- Counts `n` more occurrences of each symbol of a word, once for each time it stands there. -/
def addWord (tally : Tally) (w : Word) (n : Nat) : Tally :=
  w.foldl (fun t c => add t c n) tally

/-- The number of all occurrences. -/
def total (tally : Tally) : Nat :=
  tally.foldl (fun sum _ n => cappedAdd sum n) 0

end Tally

namespace Grammar

/-- The counts of generation 0. -/
def initialTally (g : Grammar) : Tally :=
  Tally.addWord ∅ g.start g.startRepeat

/-- The counts after one step of a word whose counts are the given entries. -/
def passOn (g : Grammar) (entries : List (Symbol × Nat)) : Tally :=
  entries.foldl (fun t e => t.addWord (g.image e.1) e.2) ∅

/-- The counts of the next generation. -/
def nextTally (g : Grammar) (tally : Tally) : Tally :=
  g.passOn tally.toList

/-- The projected lengths of at most `n` generations after one with the counts `tally`, up to the
first that repeats the counts before it. -/
def lengthsAfter (g : Grammar) : Nat → Tally → List Nat
  | 0, _ => []
  | n + 1, tally =>
      let next := g.nextTally tally
      if next = tally then [] else next.total :: g.lengthsAfter n next

/-- The projected lengths of the generations from 0 on.  The list ends with the iteration count or
where the counts no longer change. -/
def projectedLengths (g : Grammar) : List Nat :=
  g.initialTally.total :: g.lengthsAfter g.iterationCount g.initialTally

end Grammar

end TurtleCurves
