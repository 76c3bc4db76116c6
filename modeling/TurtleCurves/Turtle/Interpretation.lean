import TurtleCurves.Error
import TurtleCurves.Turtle.Machine

/-!
# Interpreting words

An interpreter is a symbol table with the options of the drawing.  It walks along a word once from
left to right, performs the command of each symbol and collects what the commands emit after the
move to the origin with which every path begins.  The first command that cannot be performed ends
the walk with an error that tells its position.

* `Walk` is the state between two symbols, `Walk.step` passes one symbol and `Walk.along` a word.
* `Interpreter.interpret` starts a walk and keeps the path of its end.
-/

namespace TurtleCurves

/-- The error for a fault at the symbol with the given position, after `drawn`. -/
def StepFault.toError {α : Type} (s : Settings α) (index : Nat) (drawn : Drawing α) :
    StepFault → CurveError α
  | emptyStack => .unbalancedBranch index drawn
  | fullStack depth => .limitExceeded ⟨.stackDepth, s.maxStackDepth, depth + 1⟩
  | zeroCoefficient => .invalidGrammar (.zeroCoefficient index)

/-- A machine and what it has drawn so far. -/
structure Walk (α : Type) where
  machine : Machine α
  path : Drawing α

namespace Walk

variable {α : Type} [Scalar α]

/-- Before the first symbol the pen has been moved to where the turtle is. -/
def start (options : DrawingOptions α) (motion : TurtleMotion α) : Walk α :=
  let machine := Machine.start options motion
  ⟨machine, Drawing.empty.push (.moveTo machine.turtle.position)⟩

/-- Passes the symbol with the given position. -/
def step (table : SymbolTable α) (s : Settings α) (index : Nat) (walk : Walk α) (c : Symbol) :
    Except (CurveError α) (Walk α) :=
  match walk.machine.step s (table.command c) with
  | .ok (machine, primitives) => .ok ⟨machine, walk.path.append primitives⟩
  | .error fault => .error (fault.toError s index walk.path)

/-- Passes a word whose first symbol has the given position. -/
def along (table : SymbolTable α) (s : Settings α) :
    Nat → Walk α → Word → Except (CurveError α) (Walk α)
  | _, walk, [] => .ok walk
  | index, walk, c :: w =>
      match walk.step table s index c with
      | .ok walk => along table s (index + 1) walk w
      | .error e => .error e

@[simp] theorem along_nil (table : SymbolTable α) (s : Settings α) (index : Nat) (walk : Walk α) :
    along table s index walk [] = .ok walk := rfl

/-- Passing a word is passing its first symbol and then, one position further on, the others. -/
theorem along_cons (table : SymbolTable α) (s : Settings α) (index : Nat) (walk : Walk α)
    (c : Symbol) (w : Word) :
    along table s index walk (c :: w) =
      (walk.step table s index c).bind fun walk => along table s (index + 1) walk w := by
  rw [along]
  cases walk.step table s index c <;> rfl

/-- Passing `u v` is passing `u` and then, further on, `v`. -/
theorem along_append (table : SymbolTable α) (s : Settings α) (index : Nat) (walk : Walk α)
    (u v : Word) :
    along table s index walk (u ++ v) =
      (along table s index walk u).bind fun walk => along table s (index + u.length) walk v := by
  induction u generalizing index walk with
  | nil => rfl
  | cons c u ih =>
    rw [List.cons_append, along_cons, along_cons]
    cases walk.step table s index c with
    | error e => rfl
    | ok walk =>
      simp only [Except.bind, ih, List.length_cons]
      rw [Nat.add_assoc, Nat.add_comm 1]

end Walk

/-- A symbol table and the options of the drawing. -/
structure Interpreter (α : Type) where
  table : SymbolTable α
  options : DrawingOptions α

namespace Interpreter

variable {α : Type}

/-- An interpreter that ignores every symbol. -/
def blank (options : DrawingOptions α) : Interpreter α :=
  ⟨.empty, options⟩

/-- The same interpreter with another table. -/
def withTable (interpreter : Interpreter α) (table : SymbolTable α) : Interpreter α :=
  { interpreter with table := table }

variable [Scalar α]

/-- The interpreter for the alphabet that the options name. -/
def ofOptions (options : DrawingOptions α) : Interpreter α :=
  ⟨SymbolTable.empty.addAlphabet options.alphabet, options⟩

/-- The walk along a word, up to its end. -/
def walk (interpreter : Interpreter α) (w : Word) (motion : TurtleMotion α) :
    Except (CurveError α) (Walk α) :=
  Walk.along interpreter.table (Settings.of interpreter.options motion) 0
    (Walk.start interpreter.options motion) w

/-- The path of a word. -/
def interpret (interpreter : Interpreter α) (w : Word) (motion : TurtleMotion α) :
    Except (CurveError α) (Drawing α) :=
  (interpreter.walk w motion).map (·.path)

end Interpreter

end TurtleCurves
