import Mathlib.Algebra.Ring.Int.Defs
import Mathlib.Data.List.Infix
import TurtleCurves.Proofs.Machine

/-!
# Nesting of branches

`depth` counts the branches that a word opens and does not close, `nesting` is the greatest depth
that it reaches on the way, and a word is `Balanced` when it closes what it opens and nothing else.
All three look at the commands of the symbols only.

The counter and the stack of the machine move together (`size_of_run`), which turns the conditions
of a single step into conditions on the word: `exists_run_iff` tells from the depths alone whether
a run gets to its end. What lies on the stack below the level at which a word starts is out of its
reach as long as the depth stays above zero (`saved_of_run`), so a balanced word leaves the whole
stack as it found it.
-/

namespace TurtleCurves

/-- By how much a command raises the stack. -/
def Command.rise {α : Type} : Command α → Int
  | push => 1
  | pop => -1
  | _ => 0

/-- A command that draws forward, turns or changes the step leaves the stack alone. -/
theorem Command.rise_eq_zero {α : Type} {cmd : Command α}
    (h : cmd.drawsForward = true ∨ cmd.turns = true ∨ cmd.rescales = true) : cmd.rise = 0 := by
  cases cmd with
  | push | pop => simp [drawsForward, turns, rescales] at h
  | _ => rfl

/-- Only the command that saves the turtle raises the stack. -/
theorem Command.eq_push_of_rise_pos {α : Type} {cmd : Command α} (h : 0 < cmd.rise) :
    cmd = .push := by
  cases cmd with
  | push => rfl
  | _ => cases h

/-- Only the return lowers the stack. -/
theorem Command.rise_nonneg {α : Type} {cmd : Command α} (h : cmd ≠ .pop) : 0 ≤ cmd.rise := by
  cases cmd with
  | pop => exact absurd rfl h
  | push => exact Int.one_nonneg
  | _ => exact Int.le_refl 0

namespace SymbolTable

variable {α : Type} (table : SymbolTable α)

/-- How many more branches a word opens than it closes. -/
def depth (w : Word) : Int :=
  (w.map fun c => (table.command c).rise).sum

/-- The greatest depth that a word reaches. -/
def nesting : Word → Int
  | [] => 0
  | c :: w => max 0 ((table.command c).rise + nesting w)

/-- No part of the word from its beginning closes more branches than it opens, and the whole word
closes all of them. -/
structure Balanced (w : Word) : Prop where
  nonneg : ∀ p, p <+: w → 0 ≤ table.depth p
  depth_eq_zero : table.depth w = 0

@[simp] theorem depth_nil : table.depth [] = 0 := rfl

@[simp] theorem depth_cons (c : Symbol) (w : Word) :
    table.depth (c :: w) = (table.command c).rise + table.depth w := by
  simp [depth]

/-- The depths of two parts add up. -/
@[simp] theorem depth_append (u v : Word) :
    table.depth (u ++ v) = table.depth u + table.depth v := by
  simp [depth]

/-- The depth at the beginning of a word is 0, so the greatest is no less. -/
theorem nesting_nonneg (w : Word) : 0 ≤ table.nesting w := by
  cases w with
  | nil => exact Int.le_refl 0
  | cons c w => exact Int.le_max_left _ _

/-- The nesting bounds exactly the depths of the word's beginnings. -/
theorem nesting_le_iff {w : Word} {n : Int} :
    table.nesting w ≤ n ↔ ∀ p, p <+: w → table.depth p ≤ n := by
  -- By induction on the word, for any bound: behind the first symbol the bound is lower by its
  -- rise.
  induction w generalizing n with
  | nil =>
    constructor
    · intro h p hp
      rw [List.prefix_nil.1 hp]
      exact h
    · intro h
      exact h [] (List.prefix_refl [])
  | cons c w ih =>
    rw [nesting, Int.max_le]
    constructor
    · rintro ⟨hzero, hw⟩ p hp
      rcases List.prefix_cons_iff.1 hp with rfl | ⟨q, rfl, hq⟩
      · exact hzero
      · have hle := ih.1 (show table.nesting w ≤ n - (table.command c).rise by omega) q hq
        rw [depth_cons]
        omega
    · intro h
      refine ⟨h [] List.nil_prefix, ?_⟩
      have hle : table.nesting w ≤ n - (table.command c).rise := ih.2 fun q hq => by
        have hcq := h (c :: q) (List.cons_prefix_cons.2 ⟨rfl, hq⟩)
        rw [depth_cons] at hcq
        omega
      omega

instance (w : Word) : Decidable (table.Balanced w) :=
  decidable_of_iff ((∀ p ∈ w.inits, 0 ≤ table.depth p) ∧ table.depth w = 0)
    ⟨fun h => ⟨fun p hp => h.1 p ((List.mem_inits p w).2 hp), h.2⟩,
      fun h => ⟨fun p hp => h.nonneg p ((List.mem_inits p w).1 hp), h.depth_eq_zero⟩⟩

/-- No beginning of a word is deeper than its nesting. -/
theorem depth_le_nesting {p w : Word} (hp : p <+: w) : table.depth p ≤ table.nesting w :=
  table.nesting_le_iff.1 (Int.le_refl _) p hp

end SymbolTable

namespace Machine

variable {α : Type} [Scalar α] {table : SymbolTable α} {s : Settings α}

/-! ## The counter and the stack -/

/-- A command moves the stack by its rise: it saves the turtle, takes the last saved one, or leaves
the stack alone. -/
theorem Effect.saved_cases {m m' : Machine α} {cmd : Command α} {ps : List (Primitive α)}
    (h : Effect s m cmd m' ps) :
    (cmd.rise = 1 ∧ m'.saved = m.saved.push m.turtle) ∨
      (cmd.rise = -1 ∧ m.saved.back? = some m'.turtle ∧ m'.saved = m.saved.pop) ∨
      (cmd.rise = 0 ∧ m'.saved = m.saved) := by
  cases h with
  | drawn hcmd => exact Or.inr (Or.inr ⟨Command.rise_eq_zero (Or.inl hcmd), rfl⟩)
  | turned hcmd => exact Or.inr (Or.inr ⟨Command.rise_eq_zero (Or.inr (Or.inl hcmd)), rfl⟩)
  | rescaled hcmd => exact Or.inr (Or.inr ⟨Command.rise_eq_zero (Or.inr (Or.inr hcmd)), rfl⟩)
  | moved | returned | recolored => exact Or.inr (Or.inr ⟨rfl, rfl⟩)
  | pushed => exact Or.inl ⟨rfl, rfl⟩
  | popped hback => exact Or.inr (Or.inl ⟨rfl, hback, rfl⟩)

/-- The stack grows by the rise of the command. -/
theorem Effect.size_eq {m m' : Machine α} {cmd : Command α} {ps : List (Primitive α)}
    (h : Effect s m cmd m' ps) : (m'.saved.size : Int) = m.saved.size + cmd.rise := by
  rcases h.saved_cases with ⟨hr, hs⟩ | ⟨hr, hback, hs⟩ | ⟨hr, hs⟩
  · rw [hs, hr, Array.size_push]
    rfl
  · -- A turtle was taken from the stack, so there was one on it.
    have hpos : 0 < m.saved.size := by
      refine Nat.pos_of_ne_zero fun hzero => ?_
      rw [Array.size_eq_zero_iff.1 hzero] at hback
      cases hback
    rw [hs, hr, Array.size_pop]
    omega
  · rw [hs, hr, Int.add_zero]

/-- The stack of a run grows by the depth of its word. -/
theorem size_of_run {m m' : Machine α} {w : Word} {ps : List (Primitive α)}
    (h : m.run table s w = .ok (m', ps)) :
    (m'.saved.size : Int) = m.saved.size + table.depth w := by
  induction w generalizing m ps with
  | nil =>
    rw [(run_nil_eq_ok_iff.1 h).1, SymbolTable.depth_nil, Int.add_zero]
  | cons c w ih =>
    obtain ⟨m₁, ps, qs, hc, hw, -⟩ := run_cons_eq_ok_iff.1 h
    rw [ih hw, (effect_of_step hc).size_eq, SymbolTable.depth_cons, Int.add_assoc]

/-- A run gets to the end of a word exactly if no symbol offends at the depth that it has there. -/
theorem exists_run_iff {m : Machine α} {w : Word} :
    (∃ m' ps, m.run table s w = .ok (m', ps)) ↔
      ∀ p c, p ++ [c] <+: w → ¬ Offends s (m.saved.size + table.depth p) (table.command c) := by
  induction w generalizing m with
  | nil =>
    constructor
    · intro _ p c hp
      exact absurd (List.prefix_nil.1 hp) (by simp)
    · intro _
      exact ⟨m, [], rfl⟩
  | cons c w ih =>
    constructor
    · rintro ⟨m', rs, h⟩ p d hp
      obtain ⟨m₁, ps, qs, hc, hw, -⟩ := run_cons_eq_ok_iff.1 h
      cases p with
      | nil =>
        obtain ⟨rfl, -⟩ := List.cons_prefix_cons.1 hp
        rw [SymbolTable.depth_nil, Int.add_zero]
        exact exists_step_iff.1 ⟨m₁, ps, hc⟩
      | cons e p =>
        obtain ⟨rfl, hp'⟩ := List.cons_prefix_cons.1 hp
        rw [SymbolTable.depth_cons, ← Int.add_assoc, ← (effect_of_step hc).size_eq]
        exact ih.1 ⟨m', qs, hw⟩ p d hp'
    · intro h
      have hfirst : ¬ Offends s m.saved.size (table.command c) := by
        have hc := h [] c (List.cons_prefix_cons.2 ⟨rfl, List.nil_prefix⟩)
        rwa [SymbolTable.depth_nil, Int.add_zero] at hc
      obtain ⟨m₁, ps, hc⟩ := exists_step_iff.2 hfirst
      -- The stack of `m₁` is higher by the rise of `c`, which is what `c` adds to every depth.
      have hrest : ∃ m' qs, m₁.run table s w = .ok (m', qs) := by
        refine ih.2 fun p d hp => ?_
        rw [(effect_of_step hc).size_eq, Int.add_assoc, ← SymbolTable.depth_cons]
        exact h (c :: p) d (List.cons_prefix_cons.2 ⟨rfl, hp⟩)
      obtain ⟨m', qs, hw⟩ := hrest
      exact ⟨m', ps ++ qs, run_cons_eq_ok_iff.2 ⟨m₁, ps, qs, hc, hw, rfl⟩⟩

/-- A balanced word can be run to its end if there is room for the branches that it opens at once
and the step can be divided where the word does so. -/
theorem exists_run_of_balanced {m : Machine α} {w : Word} (hw : table.Balanced w)
    (hroom : (m.saved.size : Int) + table.nesting w ≤ s.maxStackDepth)
    (hshrink : (∀ c ∈ w, table.command c ≠ .shrink) ∨ (s.coefficient == 0) = false) :
    ∃ m' ps, m.run table s w = .ok (m', ps) := by
  refine exists_run_iff.2 fun p c hp hoff => ?_
  -- The depths before and after `c` are those of beginnings of the word.
  have hbefore : 0 ≤ table.depth p := hw.nonneg p ((List.prefix_append p [c]).trans hp)
  have hafter : 0 ≤ table.depth (p ++ [c]) := hw.nonneg _ hp
  have hnesting : table.depth (p ++ [c]) ≤ table.nesting w := table.depth_le_nesting hp
  rw [SymbolTable.depth_append, SymbolTable.depth_cons, SymbolTable.depth_nil] at hafter hnesting
  -- Only three commands can offend, each for a reason that one of the hypotheses excludes.
  cases hc : table.command c with
  | pop =>
    rw [hc, Offends] at hoff
    rw [hc, Command.rise] at hafter
    omega
  | push =>
    rw [hc, Offends] at hoff
    rw [hc, Command.rise] at hnesting
    omega
  | shrink =>
    rw [hc, Offends] at hoff
    rcases hshrink with hnone | hcoefficient
    · exact hnone c (hp.subset (by simp)) hc
    · rw [hcoefficient] at hoff
      cases hoff
  | _ =>
    rw [hc] at hoff
    exact hoff

/-! ## What lies below is out of reach -/

/-- A word that never closes more than `extra` and its own branches leaves alone what lies below
`extra` on the stack. -/
theorem saved_of_run {m m' : Machine α} {w : Word} {ps : List (Primitive α)}
    {base extra : Array (Turtle α)} (hm : m.saved = base ++ extra)
    (hw : ∀ p, p <+: w → 0 ≤ (extra.size : Int) + table.depth p)
    (h : m.run table s w = .ok (m', ps)) :
    ∃ extra' : Array (Turtle α),
      m'.saved = base ++ extra' ∧ (extra'.size : Int) = extra.size + table.depth w := by
  induction w generalizing m ps extra with
  | nil =>
    refine ⟨extra, ?_, by rw [SymbolTable.depth_nil, Int.add_zero]⟩
    rw [(run_nil_eq_ok_iff.1 h).1, hm]
  | cons c w ih =>
    obtain ⟨m₁, ps, qs, hc, hrun, -⟩ := run_cons_eq_ok_iff.1 h
    have hstep : ∃ next : Array (Turtle α), m₁.saved = base ++ next ∧
        (next.size : Int) = extra.size + (table.command c).rise := by
      have hc0 := hw [c] (List.cons_prefix_cons.2 ⟨rfl, List.nil_prefix⟩)
      rw [SymbolTable.depth_cons, SymbolTable.depth_nil, Int.add_zero] at hc0
      rcases (effect_of_step hc).saved_cases with ⟨hr, hs⟩ | ⟨hr, -, hs⟩ | ⟨hr, hs⟩
      · refine ⟨extra.push m.turtle, ?_, by rw [hr, Array.size_push]; rfl⟩
        rw [hs, hm, Array.push_append]
      · -- The depth after `c` is not below the base, so what `c` takes off was put on above it.
        have hpos : extra ≠ #[] := by
          rintro rfl
          rw [hr, Array.size_empty] at hc0
          omega
        refine ⟨extra.pop, ?_, by rw [hr, Array.size_pop]; omega⟩
        rw [hs, hm, Array.pop_append_of_ne_empty hpos]
      · exact ⟨extra, by rw [hs, hm], by rw [hr, Int.add_zero]⟩
    obtain ⟨next, hnext, hsize⟩ := hstep
    have hrest : ∀ p, p <+: w → 0 ≤ (next.size : Int) + table.depth p := by
      intro p hp
      rw [hsize, Int.add_assoc, ← SymbolTable.depth_cons]
      exact hw (c :: p) (List.cons_prefix_cons.2 ⟨rfl, hp⟩)
    obtain ⟨extra', hextra', hsize'⟩ := ih hnext hrest hrun
    refine ⟨extra', hextra', ?_⟩
    rw [hsize', hsize, SymbolTable.depth_cons, Int.add_assoc]

/-- A balanced word leaves the stack as it found it. -/
theorem saved_of_run_balanced {m m' : Machine α} {w : Word} {ps : List (Primitive α)}
    (hw : table.Balanced w) (h : m.run table s w = .ok (m', ps)) : m'.saved = m.saved := by
  -- The whole stack is taken for what lies below, and nothing above it.
  have hm : m.saved = m.saved ++ #[] := (Array.append_empty).symm
  obtain ⟨extra, hsaved, hsize⟩ :=
    saved_of_run hm (fun p hp => by rw [Array.size_empty]; simpa using hw.nonneg p hp) h
  rw [hw.depth_eq_zero, Array.size_empty] at hsize
  have hnil : extra = #[] := Array.size_eq_zero_iff.1 (by omega)
  rw [hsaved, hnil, Array.append_empty]

end Machine

/-- After a walk the stack is as high as its word is deep. -/
theorem Interpreter.size_of_walk {α : Type} [Scalar α] {interpreter : Interpreter α}
    {motion : TurtleMotion α} {w : Word} {walk : Walk α}
    (h : interpreter.walk w motion = .ok walk) :
    (walk.machine.saved.size : Int) = interpreter.table.depth w := by
  obtain ⟨ps, hrun, -⟩ := Interpreter.walk_eq_ok_iff.1 h
  have hsize := Machine.size_of_run hrun
  rwa [show (Machine.start interpreter.options motion).saved = #[] from rfl, Array.size_empty,
    Int.natCast_zero, Int.zero_add] at hsize

end TurtleCurves
