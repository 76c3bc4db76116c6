import Std.Data.ExtTreeMap
import TurtleCurves.Geometry.Scalar
import TurtleCurves.Symbol
import TurtleCurves.Turtle.Command

/-!
# Symbol tables

A symbol table says which command a symbol stands for; a symbol that is not listed stands for
`Command.ignore`.  There are two built-in alphabets: the standard one and the classic one, which
contains it.
-/

namespace TurtleCurves

/-- The built-in alphabets. -/
inductive Alphabet
  /-- `F G + - [ ] * .` -/
  | standard
  /-- The standard symbols and those for scaled steps, moves with the pen up, turns in space, the
  secondary angle, changes of the step and round trips. -/
  | classic
deriving DecidableEq, Repr

/-- The commands of symbols. -/
structure SymbolTable (α : Type) where
  commands : Std.ExtTreeMap Symbol (Command α)

namespace SymbolTable

variable {α : Type}

/-- The table in which every symbol is ignored. -/
def empty : SymbolTable α :=
  ⟨∅⟩

/-- The command of a symbol. -/
def command (table : SymbolTable α) (symbol : Symbol) : Command α :=
  (table.commands[symbol]?).getD .ignore

/-- Binds a symbol to a command, whatever it was bound to before. -/
def set (table : SymbolTable α) (symbol : Symbol) (command : Command α) : SymbolTable α :=
  ⟨table.commands.insert symbol command⟩

/-- Binds the listed symbols in order; a later binding of a symbol wins. -/
def setAll (table : SymbolTable α) (bindings : List (Symbol × Command α)) : SymbolTable α :=
  bindings.foldl (fun t b => t.set b.1 b.2) table

/-- The table of a list of bindings. -/
def ofList (bindings : List (Symbol × Command α)) : SymbolTable α :=
  empty.setAll bindings

/-- In the empty table every symbol is ignored. -/
@[simp] theorem command_empty (symbol : Symbol) :
    (empty : SymbolTable α).command symbol = .ignore := by
  simp [command, empty]

/-- The symbol that is bound stands for the command, and the others for what they stood for. -/
theorem command_set (table : SymbolTable α) (symbol other : Symbol) (command : Command α) :
    (table.set symbol command).command other =
      if symbol = other then command else table.command other := by
  simp only [SymbolTable.command, set, Std.ExtTreeMap.getElem?_insert,
    Std.LawfulEqOrd.compare_eq_iff_eq]
  split <;> rfl

/-- After a list of bindings a symbol stands for what it stood for before or for a command of the
list. -/
theorem command_setAll_cases (table : SymbolTable α) (bindings : List (Symbol × Command α))
    (symbol : Symbol) :
    (table.setAll bindings).command symbol = table.command symbol ∨
      ∃ b ∈ bindings, (table.setAll bindings).command symbol = b.2 := by
  induction bindings generalizing table with
  | nil => exact Or.inl rfl
  | cons b bindings ih =>
    rcases ih (table.set b.1 b.2) with h | ⟨b', hb', h⟩
    · rw [command_set] at h
      split at h
      · exact Or.inr ⟨b, List.mem_cons_self, h⟩
      · exact Or.inl h
    · exact Or.inr ⟨b', List.mem_cons_of_mem b hb', h⟩

/-- Tables that agree on the binding of every symbol are equal. -/
theorem ext_getElem? {s t : SymbolTable α}
    (h : ∀ symbol : Symbol, s.commands[symbol]? = t.commands[symbol]?) : s = t := by
  cases s; cases t
  exact congrArg mk (Std.ExtTreeMap.ext_getElem? h)

end SymbolTable

namespace Alphabet

variable {α : Type} [Scalar α]

/-- The bindings of the standard alphabet. -/
def standardBindings : List (Symbol × Command α) :=
  [('F', .draw), ('G', .draw), ('+', .yaw 1), ('-', .yaw (-1)), ('[', .push), (']', .pop),
    ('*', .scale), ('.', .colorToggle)]

/-- The capitals that draw in the classic alphabet: `A` to `T` without `M` and `P`, which
pitch. -/
def drawingCapitals : List Symbol :=
  ['A', 'B', 'C', 'D', 'E', 'F', 'G', 'H', 'I', 'J', 'K', 'L', 'N', 'O', 'Q', 'R', 'S', 'T']

/-- A capital draws a step and its small letter a scaled step. -/
def letterBindings : List (Symbol × Command α) :=
  drawingCapitals.flatMap fun c => [(c, .draw), (c.toLower, .drawScaled)]

/-- What the classic alphabet has beside the standard symbols and the letters that draw. -/
def extendedBindings : List (Symbol × Command α) :=
  [('U', .move), ('V', .move), ('W', .move), ('_', .drawFromStart),
    ('⇧', .lift 1), ('⇩', .lift (-1)),
    ('>', .yawSecondary 1), ('<', .yawSecondary (-1)), ('p', .roll 1), ('m', .roll (-1)),
    ('P', .pitch 1), ('M', .pitch (-1)), ('!', .reverseTurns),
    ('/', .shrink), ('u', .stepDelta 1), ('v', .stepDelta (-1)),
    ('(', .push), (')', .pop), ('|', .roundTrip)]

/-- All bindings of an alphabet. -/
def bindings : Alphabet → List (Symbol × Command α)
  | standard => standardBindings
  | classic => standardBindings ++ letterBindings ++ extendedBindings

end Alphabet

/-- Adds the bindings of an alphabet to a table. -/
def SymbolTable.addAlphabet {α : Type} [Scalar α] (table : SymbolTable α) (alphabet : Alphabet) :
    SymbolTable α :=
  table.setAll alphabet.bindings

end TurtleCurves
