import Std.Data.ExtTreeMap
import TurtleCurves.Grammar.Fault
import TurtleCurves.Log
import TurtleCurves.Text.Blank

/-!
# Rule tables

A rule replaces its head, one symbol, by its body, a word.  A `RuleSet` holds at most one body
for each head; two tables are equal exactly when they give every symbol the same body.

* `ofPairs` adds rules one at a time.  A rule that is already there is reported and skipped, a
  second body for a head is refused.
* `parse` reads `head : body` clauses separated by semicolons.  Every clause is read before the
  first rule is added, so a malformed clause wins over a conflict and leaves no report.
-/

namespace TurtleCurves

/-- A finite assignment of bodies to heads. -/
structure RuleSet where
  /-- The body of each head. -/
  bodies : Std.ExtTreeMap Symbol Word
deriving DecidableEq

namespace RuleSet

/-- The table without rules. -/
def empty : RuleSet :=
  ⟨∅⟩

/-- The body of `head`, if there is a rule for it. -/
def body? (table : RuleSet) (head : Symbol) : Option Word :=
  table.bodies[head]?

/-- The number of heads. -/
def size (table : RuleSet) : Nat :=
  table.bodies.size

/-- No head has a rule. -/
def isEmpty (table : RuleSet) : Bool :=
  table.bodies.isEmpty

/-- The rules, by ascending head. -/
def toList (table : RuleSet) : List (Symbol × Word) :=
  table.bodies.toList

/-- Gives `head` the body `body`, whatever it had before. -/
def insert (table : RuleSet) (head : Symbol) (body : Word) : RuleSet :=
  ⟨table.bodies.insert head body⟩

@[simp] theorem body?_empty (head : Symbol) : empty.body? head = none := by
  simp [empty, body?]

/-- The head that is given a body has it, and the other heads keep theirs. -/
theorem body?_insert (table : RuleSet) (head symbol : Symbol) (body : Word) :
    (table.insert head body).body? symbol =
      if head = symbol then some body else table.body? symbol := by
  simp [insert, body?, Std.ExtTreeMap.getElem?_insert]

/-- The list of the rules holds each head with its body. -/
theorem mem_toList {table : RuleSet} {head : Symbol} {body : Word} :
    (head, body) ∈ table.toList ↔ table.body? head = some body :=
  Std.ExtTreeMap.mem_toList_iff_getElem?_eq_some

/-- Tables that agree on every symbol are equal. -/
theorem ext_body? {s t : RuleSet} (h : ∀ head, s.body? head = t.body? head) : s = t := by
  cases s; cases t
  exact congrArg mk (Std.ExtTreeMap.ext_getElem? h)

/-- Adds one rule.  The rule that is already there is reported and changes nothing; a different
body for the same head is refused. -/
def addRule (table : RuleSet) (rule : Symbol × Word) : Logged GrammarFault RuleSet :=
  match table.body? rule.1 with
  | none => pure (table.insert rule.1 rule.2)
  | some body =>
      if body = rule.2 then do
        Logged.write (.repeatedRule rule.1)
        pure table
      else Logged.fail (.conflictingBodies rule.1 body rule.2)

/-- The table of a list of rules, added in list order. -/
def ofPairs (rules : List (Symbol × Word)) : Logged GrammarFault RuleSet :=
  rules.foldlM addRule empty

end RuleSet

/-- The clauses of a rule text: what stands between its semicolons, trimmed, blank ones left
out. -/
def ruleClauses (text : List Char) : List Word :=
  ((text.splitOn ';').map Text.trim).filter fun clause => !clause.isEmpty

/-- Reads a trimmed clause.  The first colon ends the head, which must be one symbol between
blanks; all else that is not blank, later colons included, is the body. -/
def parseClause (clause : Word) : Except GrammarFault (Symbol × Word) :=
  match clause.dropWhile (· != ':') with
  | [] => .error (.missingColon clause)
  | _ :: body =>
      match Text.trim (clause.takeWhile (· != ':')) with
      | [] => .error (.emptyHead clause)
      | [head] => .ok (head, Text.strip body)
      | head => .error (.longHead head)

/-- Reads a rule text such as `X : F[+X]-X ; F : FF`. -/
def RuleSet.parse (text : List Char) : Logged GrammarFault RuleSet := do
  let rules ← Logged.ofExcept ((ruleClauses text).mapM parseClause)
  ofPairs rules

end TurtleCurves
