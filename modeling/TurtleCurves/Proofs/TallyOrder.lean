import TurtleCurves.Proofs.Agreement

/-!
# Tallies do not depend on the order of their entries

A step passes the entries of a tally on in the order in which the table happens to list them, and
every addition on the way is cut off at the cap. `Grammar.TallyAfter` leaves that order open at
every step. Whatever it is, the tally after `k` steps has an entry for each symbol of generation `k`
and for no other, and the entry is the number of its occurrences, cut off at the cap. So equal
tallies mean that the same symbols occur, as often as far as the cap lets it be seen.

Both halves are kept by a step in any order: the entries are sums, in which the order does not
matter (`counts_passOn`), and a symbol gets an entry if some symbol that occurs passes one on
(`binds_passOn`). The first tally has entries for the start word, and a grammar that comes from a
record writes that word at least once.
-/

namespace TurtleCurves

namespace Tally

/-- The entries of a tally that counts a word and has entries for its symbols only. -/
theorem getElem?_eq_of_counts {tally : Tally} {w : Word} (hcounts : tally.Counts w)
    (hbinds : tally.Binds w) (symbol : Symbol) :
    tally[symbol]? = if symbol ∈ w then some (capped (w.count symbol)) else none := by
  by_cases hmem : symbol ∈ w
  · rw [if_pos hmem, ← hcounts symbol, count]
    obtain ⟨n, hn⟩ := Option.isSome_iff_exists.1
      (Std.ExtTreeMap.mem_iff_isSome_getElem?.1 ((hbinds symbol).2 hmem))
    rw [hn, Option.getD_some]
  · rw [if_neg hmem]
    exact Std.ExtTreeMap.getElem?_eq_none fun h => hmem ((hbinds symbol).1 h)

/-- Equal tallies count words with the same symbols, as often up to the cap. -/
theorem eq_iff_of_counts {tally tally' : Tally} {w w' : Word} (hcounts : tally.Counts w)
    (hbinds : tally.Binds w) (hcounts' : tally'.Counts w') (hbinds' : tally'.Binds w') :
    tally = tally' ↔
      ∀ c, (c ∈ w ↔ c ∈ w') ∧ capped (w.count c) = capped (w'.count c) := by
  constructor
  · rintro rfl c
    exact ⟨(hbinds c).symm.trans (hbinds' c), (hcounts c).symm.trans (hcounts' c)⟩
  · intro h
    refine Std.ExtTreeMap.ext_getElem? fun c => ?_
    rw [getElem?_eq_of_counts hcounts hbinds, getElem?_eq_of_counts hcounts' hbinds', (h c).2]
    simp only [(h c).1]

end Tally

namespace Grammar

/-- What the tally may be after `k` steps, each of which passes on the entries of the tally before
it in any order. -/
inductive TallyAfter (g : Grammar) : Nat → Tally → Prop
  | zero : TallyAfter g 0 g.initialTally
  | succ {k : Nat} {tally : Tally} {entries : List (Symbol × Nat)} (h : TallyAfter g k tally)
      (horder : entries.Perm tally.toList) : TallyAfter g (k + 1) (g.passOn entries)

variable {g : Grammar} {k : Nat} {tally : Tally}

/-- There is a tally after any number of steps, since the entries can be passed on as listed. -/
theorem exists_tallyAfter (g : Grammar) (k : Nat) : ∃ tally, g.TallyAfter k tally := by
  induction k with
  | zero => exact ⟨_, .zero⟩
  | succ k ih =>
    obtain ⟨tally, h⟩ := ih
    exact ⟨g.nextTally tally, .succ h (List.Perm.refl _)⟩

/-- Whatever the order was, the tally counts its generation. -/
theorem TallyAfter.counts (h : g.TallyAfter k tally) : tally.Counts (g.generation k) := by
  induction h with
  | zero => exact g.counts_initialTally
  | succ _ horder ih =>
    rw [generation_succ]
    exact g.counts_passOn ih horder

/-- Whatever the order was, the tally has the entries of its generation. -/
theorem TallyAfter.binds (h : g.TallyAfter k tally) (hrepeat : 1 ≤ g.startRepeat) :
    tally.Binds (g.generation k) := by
  induction h with
  | zero =>
    intro c
    -- The first tally speaks of the start word, of which there is at least one copy.
    rw [g.binds_initialTally c]
    exact ⟨fun hc => subset_initialWord hrepeat hc, fun hc => g.initialWord_subset hc⟩
  | succ _ horder ih =>
    rw [generation_succ]
    exact g.binds_passOn ih horder

end Grammar

/-- The tally after `k` steps, in whatever order the entries were passed on, holds for each symbol
that occurs in generation `k` the number of its occurrences, cut off at the cap, and for no other
symbol anything. Two such tallies are equal exactly if the same symbols occur in their generations
and, up to the cap, equally often. -/
theorem tallies_count_generations {record : GrammarRecord} {g : Grammar}
    (hg : record.validate.outcome = .ok g) (k : Nat) :
    (∃ tally, g.TallyAfter k tally) ∧
    ∀ tally, g.TallyAfter k tally →
      (∀ c, tally[c]? =
        if c ∈ g.generation k then some (min (2 ^ 128 - 1) ((g.generation k).count c)) else none) ∧
      ∀ l tally', g.TallyAfter l tally' →
        (tally = tally' ↔ ∀ c, (c ∈ g.generation k ↔ c ∈ g.generation l) ∧
          min (2 ^ 128 - 1) ((g.generation k).count c) =
            min (2 ^ 128 - 1) ((g.generation l).count c)) := by
  have hrepeat : 1 ≤ g.startRepeat := (Grammar.valid_of_validate hg).startRepeat.1
  refine ⟨g.exists_tallyAfter k, fun tally h => ⟨fun c => ?_, fun l tally' h' => ?_⟩⟩
  · exact Tally.getElem?_eq_of_counts h.counts (h.binds hrepeat) c
  · exact Tally.eq_iff_of_counts h.counts (h.binds hrepeat) h'.counts (h'.binds hrepeat)

/-- One symbol is deleted and one grows, and the entries are passed on from the last to the first:
what was deleted has no entry any more. -/
theorem tallies_count_generations_deleted :
    let record : GrammarRecord :=
      { start := "aab", rules := "a : bb ; b : ", rotationAngle := 90, iterations := 2 }
    let g : Grammar :=
      ⟨"aab".toList, (RuleSet.empty.insert 'a' ['b', 'b']).insert 'b' [], 2, 1, ∅, record.motion⟩
    record.validate.outcome = .ok g ∧ g.TallyAfter 1 (g.passOn [('b', 1), ('a', 2)]) ∧
      (g.passOn [('b', 1), ('a', 2)])['b']? = some 4 ∧
      (g.passOn [('b', 1), ('a', 2)])['a']? = none := by
  intro record g
  have hg : record.validate.outcome = .ok g := by decide +kernel
  have horder : [('b', 1), ('a', 2)].Perm g.initialTally.toList := by
    have htally : g.initialTally.toList = [('a', 2), ('b', 1)] := by decide +kernel
    rw [htally]
    exact List.Perm.swap _ _ _
  have hafter : g.TallyAfter 1 (g.passOn [('b', 1), ('a', 2)]) := .succ .zero horder
  have hword : g.generation 1 = "bbbb".toList := by decide +kernel
  have hentries := ((tallies_count_generations hg 1).2 _ hafter).1
  rw [hword] at hentries
  exact ⟨hg, hafter, hentries 'b', hentries 'a'⟩

end TurtleCurves
