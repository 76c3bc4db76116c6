import TurtleCurves.Proofs.Bracketing
import TurtleCurves.Proofs.Expansion
import TurtleCurves.Proofs.Refusal
import TurtleCurves.Render

/-!
# Rendering grammars that keep branches

A grammar is rendered by projecting its generations and interpreting the last of them
(`render_outcome`). If it keeps branches for the alphabet of the options, its last generation is
balanced, so no return is left without a branch; and since its nesting is bounded by the number of
generations, a stack of that height is enough.
-/

namespace TurtleCurves

/-! ## Balanced words -/

namespace Interpreter

variable {α : Type} [Scalar α] {interpreter : Interpreter α} {motion : TurtleMotion α}

/-- In a balanced word every return has a branch. -/
theorem interpret_ne_unbalancedBranch {w : Word} (hw : interpreter.table.Balanced w) (index : Nat)
    (drawn : Drawing α) :
    interpreter.interpret w motion ≠ .error (.unbalancedBranch index drawn) := by
  intro h
  obtain ⟨u, c, v, last, rfl, -, hoff, he⟩ := interpret_eq_error_iff.1 h
  rw [offendsAt_append_cons_iff] at hoff
  cases hc : interpreter.table.command c with
  | pop =>
    -- The return would take the depth below zero.
    have hnonneg := hw.nonneg (u ++ [c]) ⟨v, by simp⟩
    rw [SymbolTable.depth_append, SymbolTable.depth_cons, SymbolTable.depth_nil, hc,
      Command.rise] at hnonneg
    rw [hc, Machine.Offends] at hoff
    omega
  | _ =>
    rw [hc] at he
    cases he

/-- A balanced word has a path if there is room for the branches that it opens at once and the step
can be divided where the word does so. -/
theorem exists_interpret_of_balanced {w : Word} (hw : interpreter.table.Balanced w)
    (hroom : interpreter.table.nesting w ≤ (interpreter.options.maxStackDepth.toNat : Int))
    (hshrink : (∀ c ∈ w, interpreter.table.command c ≠ .shrink) ∨
      (motion.scaleCoefficient == 0) = false) :
    ∃ path, interpreter.interpret w motion = .ok path := by
  rw [exists_interpret_iff, exists_walk_iff_exists_run]
  have hstart : ((Machine.start interpreter.options motion).saved.size : Int) = 0 := rfl
  refine Machine.exists_run_of_balanced hw ?_ hshrink
  rw [hstart, Int.zero_add]
  exact hroom

end Interpreter

/-! ## The built-in alphabets -/

namespace Alphabet

variable {α : Type} [Scalar α]

/-- The symbol table of an alphabet. -/
def table (alphabet : Alphabet) : SymbolTable α :=
  SymbolTable.empty.addAlphabet alphabet

/-- Nothing in the standard alphabet divides the step. -/
theorem command_standard_ne_shrink (c : Symbol) :
    (standard.table : SymbolTable α).command c ≠ .shrink := by
  have hbindings : ∀ b ∈ (standardBindings : List (Symbol × Command α)), b.2 ≠ .shrink := by
    simp [standardBindings]
  rcases SymbolTable.command_setAll_cases (α := α) .empty standardBindings c with h | ⟨b, hb, h⟩
  · show ((SymbolTable.empty : SymbolTable α).setAll standardBindings).command c ≠ .shrink
    rw [h, SymbolTable.command_empty]
    simp
  · show ((SymbolTable.empty : SymbolTable α).setAll standardBindings).command c ≠ .shrink
    rw [h]
    exact hbindings b hb

end Alphabet

/-! ## Rendering -/

namespace Grammar

/-- Rendering fails if a generation is too long, and answers otherwise what interpreting the last
generation does. -/
theorem render_outcome (g : Grammar) (options : DrawingOptions Float) :
    (g.render options).outcome =
      ((g.projectedLength options.ceiling).mapError .limitExceeded).bind fun _ =>
        (Interpreter.ofOptions options).interpret (g.generation g.iterationCount) g.motion := by
  -- Expansion answers with the last generation wherever the projection passes.
  have hexpand : ((g.expand options.ceiling).mapError
        (CurveError.limitExceeded (α := Float))).outcome =
      ((g.projectedLength options.ceiling).map fun _ => g.generation g.iterationCount).mapError
        .limitExceeded := by
    rw [← expand_outcome]
    rfl
  rw [render, Logged.outcome_bind, hexpand]
  cases g.projectedLength options.ceiling with
  | error e => rfl
  | ok projected =>
    show ((Logged.ofExcept ((Interpreter.ofOptions options).interpret
      (g.generation g.iterationCount) g.motion) >>= _).outcome) = _
    rw [Logged.outcome_bind, Logged.ofExcept_outcome]
    cases (Interpreter.ofOptions options).interpret (g.generation g.iterationCount) g.motion <;> rfl

/-- What is rendered is the last generation. -/
theorem interpret_of_render {g : Grammar} {options : DrawingOptions Float} {path : Drawing Float}
    (h : (g.render options).outcome = .ok path) :
    (Interpreter.ofOptions options).interpret (g.generation g.iterationCount) g.motion =
      .ok path := by
  rw [render_outcome] at h
  cases hproj : g.projectedLength options.ceiling with
  | error e =>
    rw [hproj] at h
    cases h
  | ok projected =>
    rw [hproj] at h
    exact h

end Grammar

/-- A grammar that keeps branches for an alphabet never fails for want of a branch. Each generation
nests branches by at most one body more than the generation before it, so with a stack for the start
word and one body for each generation, within the ceiling on symbols, and with a coefficient that
can be divided by where the alphabet has a symbol for that, there is a path. -/
theorem render_keepsBranches (alphabet : Alphabet) (g : Grammar)
    (h : g.KeepsBranches (alphabet.table : SymbolTable Float)) :
    (∀ k : Nat,
      (alphabet.table : SymbolTable Float).Balanced (g.generation k) ∧
        (alphabet.table : SymbolTable Float).nesting (g.generation k) ≤
          (alphabet.table : SymbolTable Float).nesting g.start +
            k * g.bodyNesting (alphabet.table : SymbolTable Float)) ∧
    ∀ options : DrawingOptions Float, options.alphabet = alphabet →
      (∀ index drawn, (g.render options).outcome ≠ .error (.unbalancedBranch index drawn)) ∧
      ((alphabet.table : SymbolTable Float).nesting g.start +
            g.iterationCount * g.bodyNesting (alphabet.table : SymbolTable Float) ≤
          (options.maxStackDepth.toNat : Int) →
        (∀ l ∈ options.maxSymbols, ∀ k ≤ g.iterationCount, (g.generation k).length ≤ l.toNat) →
        (alphabet = .classic → (g.motion.scaleCoefficient == 0) = false) →
        ∃ path, (g.render options).outcome = .ok path) := by
  refine ⟨fun k => ⟨h.balanced_generation k, h.nesting_generation_le k⟩, ?_⟩
  rintro options rfl
  have hbalanced : (Interpreter.ofOptions options).table.Balanced (g.generation g.iterationCount) :=
    h.balanced_generation _
  constructor
  · intro index drawn hrender
    rw [g.render_outcome] at hrender
    cases hproj : g.projectedLength options.ceiling with
    | error e =>
      rw [hproj] at hrender
      cases hrender
    | ok projected =>
      rw [hproj] at hrender
      exact Interpreter.interpret_ne_unbalancedBranch hbalanced index drawn hrender
  · intro hroom hfits hcoefficient
    obtain ⟨projected, hproj⟩ := Grammar.exists_projectedLength hfits
    -- The stack that is asked for covers the nesting of the last generation.
    have hnesting : (Interpreter.ofOptions options).table.nesting (g.generation g.iterationCount) ≤
        (options.maxStackDepth.toNat : Int) := (h.nesting_generation_le _).trans hroom
    have hshrink : (∀ c ∈ g.generation g.iterationCount,
        (Interpreter.ofOptions options).table.command c ≠ .shrink) ∨
        (g.motion.scaleCoefficient == 0) = false := by
      cases halphabet : options.alphabet with
      | classic => exact Or.inr (hcoefficient halphabet)
      | standard =>
        have htable : (Interpreter.ofOptions options).table = Alphabet.standard.table := by
          rw [← halphabet]
          rfl
        refine Or.inl fun c _ => ?_
        rw [htable]
        exact Alphabet.command_standard_ne_shrink c
    obtain ⟨path, hpath⟩ := Interpreter.exists_interpret_of_balanced hbalanced hnesting hshrink
    refine ⟨path, ?_⟩
    rw [g.render_outcome, DrawingOptions.ceiling, hproj]
    exact hpath

/-- Both pairs of brackets of the classic alphabet, closing each other, on the smallest stack that
is enough. -/
theorem render_keepsBranches_classic :
    let g : Grammar := ⟨"F(X]".toList,
      (RuleSet.empty.insert 'X' "F[+X)-(X/]".toList).insert 'F' "FF".toList, 3, 2, ∅, ⟨25, 90, 0.5⟩⟩
    let options : DrawingOptions Float :=
      { DrawingOptions.standard with maxStackDepth := 4, maxSymbols := none, alphabet := .classic }
    g.KeepsBranches (Alphabet.classic.table : SymbolTable Float) ∧
      ∃ path, (g.render options).outcome = .ok path := by
  intro g options
  have h : g.KeepsBranches (Alphabet.classic.table : SymbolTable Float) := by decide +kernel
  have hroom : (Alphabet.classic.table : SymbolTable Float).nesting g.start +
      g.iterationCount * g.bodyNesting (Alphabet.classic.table : SymbolTable Float) ≤
        (options.maxStackDepth.toNat : Int) := by decide +kernel
  exact ⟨h, ((render_keepsBranches .classic g h).2 options rfl).2 hroom
    (fun l hl => absurd hl (Option.not_mem_none l)) fun _ => by decide +kernel⟩

end TurtleCurves
