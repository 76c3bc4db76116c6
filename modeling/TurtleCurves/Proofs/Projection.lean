import TurtleCurves.Expansion.Basic
import TurtleCurves.Proofs.Tally

/-!
# Projected lengths are the lengths of the generations

`projectedLengths` and `projectedLength` never see a word. Both walk along the tallies, and both
stop at the first tally that passes itself on. The first result compares the list with the
lengths of the generations themselves, and `projectFrom_cases` says what the walk under a ceiling
answers: the length of the last generation, or the first generation that is too long.

Both inductions carry one fact, that the tally in hand counts the word in hand. Where the walk stops
early, `counts_iterate_of_nextTally_eq` makes that tally count every later word as well.
-/

namespace TurtleCurves

/-- The word is within the limit, if there is one. -/
def Word.Fits (limit : Option UInt64) (w : Word) : Prop :=
  ∀ l ∈ limit, w.length ≤ l.toNat

/-- A limit of 64 bits is below the cap, so the kept length shows whether a word fits. -/
theorem Word.fits_iff {limit : Option UInt64} {w : Word} :
    w.Fits limit ↔ ∀ l ∈ limit, capped w.length ≤ l.toNat := by
  refine forall₂_congr fun l _ => ?_
  rw [← Nat.not_lt, ← Nat.not_lt, lt_capped_iff (toNat_lt_countCap l)]

namespace Grammar

/-! ## The list of lengths -/

/-- There is at most one length for each step. -/
theorem length_lengthsAfter_le (g : Grammar) (n : Nat) (tally : Tally) :
    (g.lengthsAfter n tally).length ≤ n := by
  induction n generalizing tally with
  | zero => exact Nat.le_refl 0
  | succ n ih =>
    rw [lengthsAfter]
    split
    · exact Nat.zero_le _
    · rw [List.length_cons]
      exact Nat.succ_le_succ (ih _)

/-- An entry of the list is the length of the generation at that distance. -/
theorem getElem_lengthsAfter (g : Grammar) {n : Nat} {tally : Tally} {w : Word}
    (h : tally.Counts w) {k : Nat} (hk : k < (g.lengthsAfter n tally).length) :
    (g.lengthsAfter n tally)[k] = capped (g.iterate (k + 1) w).length := by
  -- By induction on the steps, with the tally that counts the word at hand.
  induction n generalizing tally w k with
  | zero => exact absurd hk (Nat.not_lt_zero k)
  | succ n ih =>
    have hnext := g.counts_nextTally h
    by_cases hfix : g.nextTally tally = tally
    · simp [lengthsAfter, hfix] at hk
    · simp only [lengthsAfter, hfix, if_false] at hk ⊢
      cases k with
      | zero => exact Tally.total_of_counts hnext
      | succ k =>
        rw [List.getElem_cons_succ]
        exact ih hnext (Nat.lt_of_succ_lt_succ hk)

/-- From where the list ends, the generations it was to cover keep their projected length. -/
theorem capped_length_after_lengthsAfter (g : Grammar) {n : Nat} {tally : Tally} {w : Word}
    (h : tally.Counts w) {k : Nat} (hk : (g.lengthsAfter n tally).length ≤ k) (hkn : k ≤ n) :
    capped (g.iterate k w).length =
      capped (g.iterate (g.lengthsAfter n tally).length w).length := by
  induction n generalizing tally w k with
  | zero =>
    obtain rfl : k = 0 := Nat.le_zero.1 hkn
    rfl
  | succ n ih =>
    by_cases hfix : g.nextTally tally = tally
    · -- The list ends where the tally passes itself on, and it then counts all later words.
      have hstay := g.counts_iterate_of_nextTally_eq h hfix
      rw [← Tally.total_of_counts (hstay k), ← Tally.total_of_counts (hstay _)]
    · simp only [lengthsAfter, hfix, if_false, List.length_cons] at hk ⊢
      obtain ⟨j, rfl⟩ : ∃ j, k = j + 1 := ⟨k - 1, by omega⟩
      exact ih (g.counts_nextTally h) (Nat.le_of_succ_le_succ hk) (Nat.le_of_succ_le_succ hkn)

/-- The length of a generation is read off at its number, or at the end of the list if that comes
first. -/
theorem getElem?_projectedLengths (g : Grammar) {k : Nat} (hk : k ≤ g.iterationCount) :
    g.projectedLengths[min k (g.projectedLengths.length - 1)]? =
      some (capped (g.generation k).length) := by
  have h := g.counts_initialTally
  have hlength : g.projectedLengths.length =
      (g.lengthsAfter g.iterationCount g.initialTally).length + 1 := rfl
  have hentry : ∀ j ≤ (g.lengthsAfter g.iterationCount g.initialTally).length,
      g.projectedLengths[j]? = some (capped (g.generation j).length) := by
    intro j hj
    cases j with
    | zero => exact congrArg some (Tally.total_of_counts h)
    | succ j =>
      rw [projectedLengths, List.getElem?_cons_succ, List.getElem?_eq_getElem hj,
        g.getElem_lengthsAfter h hj]
      rfl
  rw [hlength, Nat.add_sub_cancel]
  rcases Nat.le_total k (g.lengthsAfter g.iterationCount g.initialTally).length with hle | hge
  · rw [Nat.min_eq_left hle, hentry k hle]
  · rw [Nat.min_eq_right hge, hentry _ (Nat.le_refl _)]
    exact congrArg some (g.capped_length_after_lengthsAfter h hge hk).symm

/-- The projected lengths are the lengths of the generations, cut off at the cap: there is at least
one and at most one for each generation, entry `k` belongs to generation `k`, and a list that ends
early ends with the length of all generations that it leaves out. -/
theorem projectedLengths_eq (g : Grammar) :
    (1 ≤ g.projectedLengths.length ∧ g.projectedLengths.length ≤ g.iterationCount + 1) ∧
      (∀ (k : Nat) (hk : k < g.projectedLengths.length),
        g.projectedLengths[k] = min (2 ^ 128 - 1) (g.generation k).length) ∧
      ∀ k, g.projectedLengths.length ≤ k → k ≤ g.iterationCount →
        g.projectedLengths.getLast? = some (min (2 ^ 128 - 1) (g.generation k).length) := by
  have h := g.counts_initialTally
  have hentry : ∀ (k : Nat) (hk : k < g.projectedLengths.length),
      g.projectedLengths[k] = capped (g.generation k).length := by
    intro k hk
    cases k with
    | zero => exact Tally.total_of_counts h
    | succ k => exact g.getElem_lengthsAfter h (Nat.lt_of_succ_lt_succ hk)
  rw [← countCap_eq]
  refine ⟨⟨?_, ?_⟩, hentry, ?_⟩
  · exact Nat.succ_le_succ (Nat.zero_le _)
  · exact Nat.succ_le_succ (g.length_lengthsAfter_le _ _)
  · intro k hk hkn
    have hlen : g.projectedLengths.length =
        (g.lengthsAfter g.iterationCount g.initialTally).length + 1 := rfl
    have hlast : g.projectedLengths.length - 1 < g.projectedLengths.length := by omega
    -- The last entry stands for its own generation, which all later ones equal in length up to the
    -- cap.
    have hstay : capped (g.generation (g.projectedLengths.length - 1)).length =
        capped (g.generation k).length := by
      rw [hlen, Nat.add_sub_cancel]
      exact (g.capped_length_after_lengthsAfter h (by omega) hkn).symm
    rw [List.getLast?_eq_getElem?, List.getElem?_eq_getElem hlast, hentry _ hlast, hstay, capped]

/-! ## Projection under a ceiling -/

/-- A kept length passes the ceiling exactly if the word fits, and is refused with the ceiling
otherwise. -/
theorem checkSymbols_capped (limit : Option UInt64) (w : Word) :
    checkSymbols (limit.map UInt64.toNat) (capped w.length) = .ok (capped w.length) ∧ w.Fits limit ∨
      ∃ l ∈ limit, l.toNat < w.length ∧
        checkSymbols (limit.map UInt64.toNat) (capped w.length) =
          .error ⟨.symbols, l.toNat, capped w.length⟩ := by
  cases limit with
  | none => exact Or.inl ⟨rfl, fun l hl => absurd hl (Option.not_mem_none l)⟩
  | some l =>
    simp only [Option.map_some, checkSymbols, lt_capped_iff (toNat_lt_countCap l)]
    by_cases hlt : l.toNat < w.length
    · rw [if_pos hlt]
      exact Or.inr ⟨l, rfl, hlt, rfl⟩
    · rw [if_neg hlt]
      refine Or.inl ⟨rfl, ?_⟩
      rintro _ ⟨⟩
      exact Nat.le_of_not_lt hlt

/-- Among the words up to `n` steps from `w`, the one after `j` steps is the first above `l`. -/
structure FirstAbove (g : Grammar) (l n : Nat) (w : Word) (j : Nat) : Prop where
  le : j ≤ n
  above : l < (g.iterate j w).length
  before : ∀ i < j, (g.iterate i w).length ≤ l

/-- If the word at hand is within the limit, the first above it is one of the later words. -/
theorem FirstAbove.succ {g : Grammar} {l n j : Nat} {w : Word} (hw : w.length ≤ l)
    (h : g.FirstAbove l n (g.step w) j) : g.FirstAbove l (n + 1) w (j + 1) := by
  refine ⟨Nat.succ_le_succ h.le, h.above, fun i hi => ?_⟩
  cases i with
  | zero => exact hw
  | succ i => exact h.before i (Nat.lt_of_succ_lt_succ hi)

/-- The projection of `n` generations after `w` either finds all of them within the limit and
answers with the length of the last, or refuses the first that is not. -/
theorem projectFrom_cases (g : Grammar) (limit : Option UInt64) {n : Nat} {tally : Tally} {w : Word}
    (h : tally.Counts w) :
    (∀ k ≤ n, (g.iterate k w).Fits limit) ∧
        g.projectFrom (limit.map UInt64.toNat) n tally = .ok (capped (g.iterate n w).length) ∨
      ∃ l ∈ limit, ∃ j, g.FirstAbove l.toNat n w j ∧
        g.projectFrom (limit.map UInt64.toNat) n tally =
          .error ⟨.symbols, l.toNat, capped (g.iterate j w).length⟩ := by
  induction n generalizing tally w with
  | zero =>
    rw [projectFrom, Tally.total_of_counts h]
    rcases checkSymbols_capped limit w with ⟨hok, hfits⟩ | ⟨l, hl, hlt, herr⟩
    · refine Or.inl ⟨fun k hk => ?_, hok⟩
      obtain rfl : k = 0 := Nat.le_zero.1 hk
      exact hfits
    · exact Or.inr ⟨l, hl, 0, ⟨Nat.le_refl 0, hlt, fun i hi => absurd hi (Nat.not_lt_zero i)⟩, herr⟩
  | succ n ih =>
    rw [projectFrom, Tally.total_of_counts h]
    rcases checkSymbols_capped limit w with ⟨hok, hfits⟩ | ⟨l, hl, hlt, herr⟩
    · simp only [hok]
      by_cases hfix : g.nextTally tally = tally
      · -- The walk stops, and every later word has the kept length of `w`.
        have hstay : ∀ k, capped (g.iterate k w).length = capped w.length := fun k => by
          rw [← Tally.total_of_counts (g.counts_iterate_of_nextTally_eq h hfix k),
            Tally.total_of_counts h]
        rw [if_pos hfix, hstay]
        refine Or.inl ⟨fun k _ => ?_, rfl⟩
        rw [Word.fits_iff, hstay, ← Word.fits_iff]
        exact hfits
      · rw [if_neg hfix]
        rcases ih (g.counts_nextTally h) with ⟨hall, hproj⟩ | ⟨l, hl, j, hj, hproj⟩
        · refine Or.inl ⟨fun k hk => ?_, hproj⟩
          cases k with
          | zero => exact hfits
          | succ k => exact hall k (Nat.le_of_succ_le_succ hk)
        · exact Or.inr ⟨l, hl, j + 1, hj.succ (hfits l hl), hproj⟩
    · simp only [herr]
      exact Or.inr ⟨l, hl, 0, ⟨Nat.zero_le _, hlt, fun i hi => absurd hi (Nat.not_lt_zero i)⟩, rfl⟩

/-- The projection succeeds if all generations fit. -/
theorem exists_projectedLength {g : Grammar} {limit : Option UInt64}
    (h : ∀ l ∈ limit, ∀ k ≤ g.iterationCount, (g.generation k).length ≤ l.toNat) :
    ∃ length, g.projectedLength (limit.map UInt64.toNat) = .ok length := by
  rcases g.projectFrom_cases limit (n := g.iterationCount) g.counts_initialTally with
    ⟨-, hproj⟩ | ⟨l, hl, j, hj, -⟩
  · exact ⟨_, hproj⟩
  · exact absurd (h l hl j hj.le) (Nat.not_le_of_lt hj.above)

/-- A projection that succeeds shows that all generations are within the limit. -/
theorem fits_of_projectedLength {g : Grammar} {limit : Option UInt64} {length : Nat}
    (h : g.projectedLength (limit.map UInt64.toNat) = .ok length) :
    ∀ k ≤ g.iterationCount, (g.generation k).Fits limit := by
  rcases g.projectFrom_cases limit (n := g.iterationCount) g.counts_initialTally with
    ⟨hfits, -⟩ | ⟨l, hl, j, hj, herror⟩
  · exact hfits
  · rw [projectedLength, herror] at h
    cases h

end Grammar

end TurtleCurves
