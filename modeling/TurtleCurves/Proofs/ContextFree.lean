import TurtleCurves.Proofs.Expansion

/-!
# Expansion is context free

What a symbol becomes does not depend on the symbols around it. Rewriting is therefore a
homomorphism of words, for any number of steps (`iterate_append`), and the expansions of a word can
be put together from those of its parts.

The three runs that are compared stop at generations of their own: one part may be left without
productions, or with counts that no longer change, long before the other. So nothing is proved of
the loops here. `expand_eq_ok_iff` says what an expansion answers in terms of its generations, and
everything else is said of `iterate`, which never stops early. Under a ceiling the generations of a
part fit because they are no longer than those of the whole.
-/

namespace TurtleCurves

namespace Word

@[simp] theorem times_zero (w : Word) : times 0 w = [] := by
  rw [times_eq, List.replicate_zero, List.flatten_nil]

@[simp] theorem times_one (w : Word) : times 1 w = w := by
  simp [times_eq]

@[simp] theorem length_times (n : Nat) (w : Word) : (times n w).length = n * w.length := by
  simp [times_eq]

/-- One more copy stands in front of the others. -/
theorem times_succ (n : Nat) (w : Word) : times (n + 1) w = w ++ times n w := by
  rw [times_eq, times_eq, List.replicate_succ, List.flatten_cons]

end Word

namespace Grammar

/-! ## Iterated steps -/

/-- The empty word stays empty. -/
theorem iterate_nil (g : Grammar) (k : Nat) : g.iterate k [] = [] := by
  induction k with
  | zero => rfl
  | succ k ih => exact ih

/-- The parts of a word are rewritten apart. -/
theorem iterate_append (g : Grammar) (k : Nat) (u v : Word) :
    g.iterate k (u ++ v) = g.iterate k u ++ g.iterate k v := by
  -- By induction on the steps, for any two parts, since a step changes both.
  induction k generalizing u v with
  | zero => rfl
  | succ k ih => rw [iterate, step_append, ih, iterate, iterate]

/-- The copies of a word stay copies of one word. -/
theorem iterate_times (g : Grammar) (k m : Nat) (u : Word) :
    g.iterate k (Word.times m u) = Word.times m (g.iterate k u) := by
  induction m with
  | zero => rw [Word.times_zero, Word.times_zero, iterate_nil]
  | succ m ih => rw [Word.times_succ, iterate_append, ih, Word.times_succ]

/-- `a + b` steps are `b` steps from where `a` steps lead. -/
theorem iterate_add (g : Grammar) (a b : Nat) (w : Word) :
    g.iterate (a + b) w = g.iterate b (g.iterate a w) := by
  induction a generalizing w with
  | zero => rw [Nat.zero_add, iterate]
  | succ a ih => rw [Nat.succ_add, iterate, ih, iterate]

/-! ## The same rules with another start -/

/-- The grammar with the same rules and skipped symbols that begins with copies of the word `start`
and has `n` generations. -/
def restart (g : Grammar) (start : Word) (copies n : Nat) : Grammar :=
  { g with start := start, startRepeat := copies, iterationCount := n }

/-- A step asks for the rules and the skipped symbols only. -/
theorem iterate_restart (g : Grammar) (start : Word) (copies n k : Nat) (w : Word) :
    (g.restart start copies n).iterate k w = g.iterate k w := by
  induction k generalizing w with
  | zero => rfl
  | succ k ih => exact ih (g.step w)

/-- The generations from another start are copies of what becomes of the new word. -/
theorem generation_restart (g : Grammar) (start : Word) (copies n k : Nat) :
    (g.restart start copies n).generation k = Word.times copies (g.iterate k start) := by
  rw [generation, iterate_restart, ← iterate_times]
  rfl

/-- Without a ceiling the expansion from another start is the last of these generations. -/
theorem expand_restart (g : Grammar) (start : Word) (copies n : Nat) :
    ((g.restart start copies n).expand none).outcome =
      .ok (Word.times copies (g.iterate n start)) := by
  rw [expand_none, generation_restart]
  rfl

/-- Copies of a word have an expansion under a ceiling if there is one of as many copies of a word
whose generations are at least as long. -/
theorem exists_expand_restart {g : Grammar} {limit : Option UInt64} {u w word : Word}
    {copies n : Nat} (hle : ∀ k, (g.iterate k u).length ≤ (g.iterate k w).length)
    (h : ((g.restart w copies n).expand (limit.map UInt64.toNat)).outcome = .ok word) :
    ∃ part, ((g.restart u copies n).expand (limit.map UInt64.toNat)).outcome = .ok part := by
  obtain ⟨hfits, -⟩ := expand_eq_ok_iff.1 h
  refine ⟨_, expand_eq_ok_iff.2 ⟨fun k hk l hl => ?_, rfl⟩⟩
  -- The generations of `w` fit, and those of `u` are no longer.
  have hlong := hfits k hk l hl
  rw [generation_restart, Word.length_times] at hlong ⊢
  exact (Nat.mul_le_mul_left copies (hle k)).trans hlong

end Grammar

/-- Without a ceiling the expansion of a word is what its symbols are rewritten to in as many steps.
So the expansion of `u v` is that of `u` followed by that of `v`, the expansion of copies of `u` is
as many copies of its expansion, and the expansion in `a + b` generations is that in `b` generations
of what there is after `a`. Under a ceiling the parts of a word have expansions if the word has
one. -/
theorem expand_contextFree (g : Grammar) (u v : Word) (copies : Nat) :
    (∀ w n, ((g.restart w 1 n).expand none).outcome = .ok (g.iterate n w)) ∧
    (∀ n, ((g.restart (u ++ v) 1 n).expand none).outcome =
      .ok (g.iterate n u ++ g.iterate n v)) ∧
    (∀ n, ((g.restart u copies n).expand none).outcome =
      .ok (List.replicate copies (g.iterate n u)).flatten) ∧
    (∀ a b, ∃ w, ((g.restart u copies a).expand none).outcome = .ok w ∧
      ((g.restart u copies (a + b)).expand none).outcome =
        ((g.restart w 1 b).expand none).outcome) ∧
    ∀ (limit : Option UInt64) (n : Nat) (w : Word),
      ((g.restart (u ++ v) copies n).expand (limit.map UInt64.toNat)).outcome = .ok w →
      (∃ w₁, ((g.restart u copies n).expand (limit.map UInt64.toNat)).outcome = .ok w₁) ∧
        ∃ w₂, ((g.restart v copies n).expand (limit.map UInt64.toNat)).outcome = .ok w₂ := by
  -- The other parts are read off this one, in which no loop is left.
  have hone : ∀ w n, ((g.restart w 1 n).expand none).outcome = .ok (g.iterate n w) := by
    intro w n
    rw [g.expand_restart, Word.times_one]
  refine ⟨hone, fun n => ?_, fun n => ?_, fun a b => ⟨_, g.expand_restart u copies a, ?_⟩,
    fun limit n w h => ⟨?_, ?_⟩⟩
  · rw [hone, g.iterate_append]
  · rw [g.expand_restart, Word.times_eq]
  · rw [hone, g.expand_restart, g.iterate_times, g.iterate_add]
  · refine Grammar.exists_expand_restart (fun k => ?_) h
    rw [g.iterate_append, List.length_append]
    omega
  · refine Grammar.exists_expand_restart (fun k => ?_) h
    rw [g.iterate_append, List.length_append]
    omega

/-- A part that is left without productions at once and one that grows, under a ceiling that the
whole word just reaches. -/
theorem expand_contextFree_growing :
    let g : Grammar := ⟨[], RuleSet.empty.insert 'F' "F+F".toList, 0, 1, ∅, ⟨90, 0, 1⟩⟩
    ((g.restart "+F".toList 2 2).expand (some 16)).outcome = .ok "+F+F+F+F+F+F+F+F".toList ∧
      (∃ w, ((g.restart "+".toList 2 2).expand (some 16)).outcome = .ok w) ∧
        ∃ w, ((g.restart "F".toList 2 2).expand (some 16)).outcome = .ok w := by
  intro g
  have h : ((g.restart "+F".toList 2 2).expand (some 16)).outcome =
      .ok "+F+F+F+F+F+F+F+F".toList := by decide +kernel
  exact ⟨h, (expand_contextFree g "+".toList "F".toList 2).2.2.2.2 (some 16) 2 _ h⟩

end TurtleCurves
