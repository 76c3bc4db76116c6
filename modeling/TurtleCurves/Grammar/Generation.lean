import TurtleCurves.Grammar.Basic

/-!
# Generations

One step replaces every symbol of a word at once: a symbol with a production by its
body, any other by itself.  A step is thus the extension of `Grammar.image` from symbols to words,
and the `k`-th generation is `k` steps from the initial word.

`Generations` hands out the generations one after the other.
-/

namespace TurtleCurves

namespace Grammar

/-- What one step makes of a symbol. -/
def image (g : Grammar) (symbol : Symbol) : Word :=
  (g.production? symbol).getD [symbol]

/-- Replaces every symbol of a word once. -/
def step (g : Grammar) (w : Word) : Word :=
  w.flatMap g.image

/-- `k` steps from the word `w`. -/
def iterate (g : Grammar) : Nat → Word → Word
  | 0, w => w
  | k + 1, w => g.iterate k (g.step w)

/-- The word after `k` steps from the initial word. -/
def generation (g : Grammar) (k : Nat) : Word :=
  g.iterate k g.initialWord

/-- Some symbol of the word has a production. -/
def hasProduction (g : Grammar) (w : Word) : Bool :=
  w.any fun c => (g.production? c).isSome

/-- The number of bytes that the next word takes in UTF-8, found without building it: a body
counts its own bytes, a symbol that stays those of its encoding. -/
def stepBytes (g : Grammar) (w : Word) : Nat :=
  w.foldl
    (fun n c =>
      n + match g.production? c with
        | some body => body.utf8Length
        | none => c.utf8Size)
    0

@[simp] theorem step_nil (g : Grammar) : g.step [] = [] := rfl

@[simp] theorem step_cons (g : Grammar) (c : Symbol) (w : Word) :
    g.step (c :: w) = g.image c ++ g.step w := rfl

/-- The parts of a word are replaced apart. -/
theorem step_append (g : Grammar) (u v : Word) : g.step (u ++ v) = g.step u ++ g.step v :=
  List.flatMap_append

/-- The bytes that were counted before are added to those of the next word. -/
private theorem foldl_stepBytes (g : Grammar) (w : Word) (n : Nat) :
    w.foldl
      (fun n c =>
        n + match g.production? c with
          | some body => body.utf8Length
          | none => c.utf8Size)
      n = n + (g.step w).utf8Length := by
  induction w generalizing n with
  | nil => rfl
  | cons c w ih =>
    rw [List.foldl_cons, ih, step_cons, Word.utf8Length_append, image]
    cases g.production? c with
    | none => simp [Nat.add_assoc]
    | some body => simp [Nat.add_assoc]

/-- The bytes of the next word are those found without building it. -/
theorem stepBytes_eq (g : Grammar) (w : Word) : g.stepBytes w = (g.step w).utf8Length :=
  (g.foldl_stepBytes w 0).trans (Nat.zero_add _)

/-- The next generation is one step from the last. -/
theorem iterate_succ (g : Grammar) (k : Nat) (w : Word) :
    g.iterate (k + 1) w = g.step (g.iterate k w) := by
  induction k generalizing w with
  | zero => rfl
  | succ k ih => rw [iterate, ih, iterate]

/-- The next generation is one step from the last. -/
theorem generation_succ (g : Grammar) (k : Nat) :
    g.generation (k + 1) = g.step (g.generation k) :=
  iterate_succ g k g.initialWord

end Grammar

/-- A supply of generations: the next one to hand out, if any, and how many follow it. -/
structure Generations where
  grammar : Grammar
  /-- The generation that comes next. -/
  current : Option Word
  /-- How many more generations follow that one. -/
  remaining : Nat

namespace Generations

/-- Hands out the current generation and prepares the one after it. -/
def next (s : Generations) : Option Word × Generations :=
  match s.current with
  | none => (none, s)
  | some w =>
      match s.remaining with
      | 0 => (some w, { s with current := none })
      | n + 1 => (some w, { s with current := some (s.grammar.step w), remaining := n })

/-- The answers to `n` requests. -/
def take : Nat → Generations → List (Option Word)
  | 0, _ => []
  | n + 1, s => s.next.1 :: s.next.2.take n

/-- A supply that has handed out its last generation answers every request with none. -/
theorem take_exhausted (g : Grammar) (remaining n : Nat) :
    take n ⟨g, none, remaining⟩ = List.replicate n none := by
  induction n with
  | zero => rfl
  | succ n ih => exact congrArg (none :: ·) ih

end Generations

/-- All generations from 0 to the iteration count, without a ceiling. -/
def Grammar.generations (g : Grammar) : Generations :=
  ⟨g, some g.initialWord, g.iterationCount⟩

end TurtleCurves
