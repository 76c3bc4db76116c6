import TurtleCurves.Proofs.Projection

/-!
# Expansion is iterated rewriting

`expandFrom` stops at a word without productions. Such a word is its own image, so the word it
stops at is also the last one (`expandFrom_word`). Together with `projectFrom_cases` this gives the
answers of `expand` and `projectedLength` in terms of the generations alone.
-/

namespace TurtleCurves

namespace Grammar

/-- A symbol without a production stays. -/
theorem image_of_production?_eq_none {g : Grammar} {c : Symbol} (h : g.production? c = none) :
    g.image c = [c] := by
  rw [image, h, Option.getD_none]

/-- A word without productions is its own next word. -/
theorem step_of_hasProduction_eq_false {g : Grammar} {w : Word} (h : g.hasProduction w = false) :
    g.step w = w := by
  induction w with
  | nil => rfl
  | cons c w ih =>
    rw [hasProduction, List.any_cons, Bool.or_eq_false_iff, ← hasProduction] at h
    have hc : g.production? c = none :=
      Option.isNone_iff_eq_none.1 (Option.isSome_eq_false_iff.1 h.1)
    rw [step_cons, image_of_production?_eq_none hc, ih h.2, List.singleton_append]

/-- A word without productions stays, however many steps are made. -/
theorem iterate_of_hasProduction_eq_false {g : Grammar} {w : Word}
    (h : g.hasProduction w = false) (k : Nat) : g.iterate k w = w := by
  induction k with
  | zero => rfl
  | succ k ih => rw [iterate, step_of_hasProduction_eq_false h, ih]

/-- The word that is built, whether or not the building stops early. -/
theorem expandFrom_word (g : Grammar) (n k : Nat) (w : Word) (records : Array LogRecord) :
    (g.expandFrom n k w records).1 = g.iterate n w := by
  induction n generalizing k w records with
  | zero => rfl
  | succ n ih =>
    rw [expandFrom]
    by_cases h : g.hasProduction w = true
    · rw [if_pos h, ih, iterate]
    · -- The building stops at `w`, which all the steps that are left would only repeat.
      rw [if_neg h, iterate_of_hasProduction_eq_false (Bool.not_eq_true _ |>.mp h)]

/-- Expansion answers with a word exactly where projection answers with a length, and the word is
the last generation. -/
theorem expand_outcome (g : Grammar) (ceiling : Option Nat) :
    (g.expand ceiling).outcome =
      (g.projectedLength ceiling).map fun _ => g.generation g.iterationCount := by
  rw [expand]
  cases g.projectedLength ceiling with
  | error e => rfl
  | ok projected =>
    show Except.ok (g.expandFrom g.iterationCount 0 g.initialWord #[]).1 = _
    rw [expandFrom_word]
    rfl

/-- Expansion succeeds exactly if all generations are within the limit, and then with the last. -/
theorem expand_eq_ok_iff {g : Grammar} {limit : Option UInt64} {w : Word} :
    (g.expand (limit.map UInt64.toNat)).outcome = .ok w ↔
      (∀ k ≤ g.iterationCount, (g.generation k).Fits limit) ∧
        w = g.generation g.iterationCount := by
  rw [expand_outcome]
  constructor
  · intro h
    cases hproj : g.projectedLength (limit.map UInt64.toNat) with
    | error e =>
      rw [hproj] at h
      cases h
    | ok length =>
      rw [hproj] at h
      cases h
      exact ⟨fits_of_projectedLength hproj, rfl⟩
  · rintro ⟨hfits, rfl⟩
    obtain ⟨length, hproj⟩ := exists_projectedLength fun l hl k hk => hfits k hk l hl
    rw [hproj]
    rfl

/-- Without a ceiling nothing is refused. -/
theorem expand_none (g : Grammar) :
    (g.expand none).outcome = .ok (g.generation g.iterationCount) := by
  have hfits : ∀ k ≤ g.iterationCount, (g.generation k).Fits none :=
    fun _ _ l hl => absurd hl (Option.not_mem_none l)
  exact expand_eq_ok_iff.2 ⟨hfits, rfl⟩

/-- Either every generation is within the limit, and the answers are the last generation and its
length, cut off at the cap; or some generation is not, and both answers refuse the first such
generation, however short the later ones are. -/
theorem expand_cases (g : Grammar) (limit : Option UInt64) :
    ((∀ l ∈ limit, ∀ k ≤ g.iterationCount, (g.generation k).length ≤ l.toNat) ∧
        (g.expand (limit.map UInt64.toNat)).outcome = .ok (g.generation g.iterationCount) ∧
        g.projectedLength (limit.map UInt64.toNat) =
          .ok (min (2 ^ 128 - 1) (g.generation g.iterationCount).length)) ∨
      ∃ l ∈ limit, ∃ j ≤ g.iterationCount,
        l.toNat < (g.generation j).length ∧ (∀ i < j, (g.generation i).length ≤ l.toNat) ∧
        (g.expand (limit.map UInt64.toNat)).outcome =
          .error ⟨.symbols, l.toNat, min (2 ^ 128 - 1) (g.generation j).length⟩ ∧
        g.projectedLength (limit.map UInt64.toNat) =
          .error ⟨.symbols, l.toNat, min (2 ^ 128 - 1) (g.generation j).length⟩ := by
  rw [← countCap_eq, expand_outcome]
  rcases g.projectFrom_cases limit g.counts_initialTally with ⟨hall, hproj⟩ | ⟨l, hl, j, hj, hproj⟩
  · refine Or.inl ⟨fun l hl k hk => hall k hk l hl, ?_, hproj⟩
    rw [projectedLength, hproj]
    rfl
  · refine Or.inr ⟨l, hl, j, hj.le, hj.above, hj.before, ?_, hproj⟩
    rw [projectedLength, hproj]
    rfl

/-- A generation in the middle is refused although the last is empty. -/
example :
    let g : Grammar :=
      ⟨['a'], (RuleSet.empty.insert 'a' "bbbb".toList).insert 'b' [], 2, 1, ∅, ⟨90, 0, 1⟩⟩
    g.generation 2 = [] ∧ (g.expand (some 3)).outcome = .error ⟨.symbols, 3, 4⟩ := by
  decide +kernel

end Grammar

end TurtleCurves
