import Mathlib.Data.Set.Basic
import TurtleCurves.Expansion.Basic
import TurtleCurves.Proofs.Tally
import TurtleCurves.Proofs.Validation

/-!
# Grammars that agree on what they rewrite

An expansion asks a grammar for the productions of the symbols of its generations and for nothing
else. Two grammars with the same start that agree on those symbols therefore expand alike, whatever
rules they have for others.

## Shape of the proof

`AgreeFor` says that two grammars agree on the symbols of the first words of a sequence. If it holds
of `n + 1` words from `w` on, the grammars make the same step from `w`, and it holds of `n` words
from there on. Each of the four loops is an induction on the number of words with that step: the one
that builds words, the two that project lengths and the one that hands out generations. The
projections see a tally in place of a word, and its entries are the symbols of the word
(`Tally.Binds`). What is left is to find agreement from what is known of the grammars: from a set of
symbols that is closed under productions (`Closed.iterate`), or from the generations of one of them.
-/

namespace TurtleCurves

namespace Grammar

variable {g g' : Grammar} {n : Nat} {u w : Word}

/-- The grammars have the same production for each symbol of the word. -/
def AgreeOn (g g' : Grammar) (w : Word) : Prop :=
  ∀ c ∈ w, g.production? c = g'.production? c

/-- The grammars agree on each of the `n` words that come after one another from `w` on. -/
def AgreeFor (g g' : Grammar) (n : Nat) (w : Word) : Prop :=
  ∀ k < n, g.AgreeOn g' (g.iterate k w)

/-! ## One step -/

namespace AgreeOn

variable (h : g.AgreeOn g' w)

include h

/-- Each symbol of the word becomes the same. -/
theorem image {c : Symbol} (hc : c ∈ w) : g.image c = g'.image c := by
  rw [Grammar.image, Grammar.image, h c hc]

/-- The next word is the same. -/
theorem step : g.step w = g'.step w :=
  List.flatMap_congr fun _ hc => h.image hc

/-- If one grammar replaces something in the word, so does the other. -/
theorem hasProduction : g.hasProduction w = g'.hasProduction w := by
  rw [Grammar.hasProduction, Grammar.hasProduction, Bool.eq_iff_iff, List.any_eq_true,
    List.any_eq_true]
  exact exists_congr fun c => and_congr_right fun hc => by rw [h c hc]

/-- The next word is announced with the same number of bytes. -/
theorem stepBytes : g.stepBytes w = g'.stepBytes w :=
  List.foldl_ext _ _ _ fun n c hc => by rw [h c hc]

/-- A tally with the entries of the word is passed on alike. -/
theorem nextTally {tally : Tally} (hbinds : tally.Binds w) :
    g.nextTally tally = g'.nextTally tally :=
  List.foldl_ext _ _ _ fun t e he => by
    rw [h.image ((hbinds e.1).1 (Tally.mem_iff_exists_mem_toList.2 ⟨e, he, rfl⟩))]

end AgreeOn

/-- Grammars that agree on some words agree on the first of them. -/
theorem AgreeFor.here (h : g.AgreeFor g' (n + 1) w) : g.AgreeOn g' w :=
  h 0 n.succ_pos

/-- Grammars that agree on some words agree on those behind the first. -/
theorem AgreeFor.next (h : g.AgreeFor g' (n + 1) w) : g.AgreeFor g' n (g.step w) :=
  fun k hk => h (k + 1) (Nat.succ_lt_succ hk)

/-! ## The four loops -/

namespace AgreeFor

/-- The grammars build the same word and report the same on the way. -/
theorem expandFrom (h : g.AgreeFor g' n w) (k : Nat) (records : Array LogRecord) :
    g.expandFrom n k w records = g'.expandFrom n k w records := by
  -- The loop counts down the steps that are left, and so does the agreement (`AgreeFor.next`).
  induction n generalizing k w records with
  | zero => rfl
  | succ n ih =>
    rw [Grammar.expandFrom, Grammar.expandFrom, ← h.here.hasProduction, ← h.here.stepBytes,
      ← h.here.step, ih h.next]

/-- The grammars project the same length, or refuse the same. -/
theorem projectFrom (h : g.AgreeFor g' n w) {tally : Tally} (hbinds : tally.Binds w)
    (ceiling : Option Nat) :
    g.projectFrom ceiling n tally = g'.projectFrom ceiling n tally := by
  induction n generalizing tally w with
  | zero => rfl
  | succ n ih =>
    simp only [Grammar.projectFrom, ← h.here.nextTally hbinds,
      ih h.next (g.binds_nextTally hbinds)]

/-- The grammars project the same list of lengths. -/
theorem lengthsAfter (h : g.AgreeFor g' n w) {tally : Tally} (hbinds : tally.Binds w) :
    g.lengthsAfter n tally = g'.lengthsAfter n tally := by
  induction n generalizing tally w with
  | zero => rfl
  | succ n ih =>
    simp only [Grammar.lengthsAfter, ← h.here.nextTally hbinds,
      ih h.next (g.binds_nextTally hbinds)]

/-- The grammars hand out the same generations. -/
theorem take (h : g.AgreeFor g' n w) (m : Nat) :
    Generations.take m ⟨g, some w, n⟩ = Generations.take m ⟨g', some w, n⟩ := by
  induction m generalizing n w with
  | zero => rfl
  | succ m ih =>
    cases n with
    | zero =>
      -- The last generation is handed out, and no grammar is asked any more.
      show some w :: Generations.take m ⟨g, none, 0⟩ = some w :: Generations.take m ⟨g', none, 0⟩
      rw [Generations.take_exhausted, Generations.take_exhausted]
    | succ n =>
      show some w :: Generations.take m ⟨g, some (g.step w), n⟩ =
        some w :: Generations.take m ⟨g', some (g'.step w), n⟩
      rw [← h.here.step, ih h.next]

end AgreeFor

/-! ## Grammars that expand alike -/

/-- Nothing that can be asked about the generations tells the grammars apart. -/
structure ExpandsLike (g g' : Grammar) : Prop where
  projectedLength : ∀ ceiling, g.projectedLength ceiling = g'.projectedLength ceiling
  expand : ∀ ceiling, g.expand ceiling = g'.expand ceiling
  projectedLengths : g.projectedLengths = g'.projectedLengths
  generations : ∀ n, g.generations.take n = g'.generations.take n

/-- What has no other symbols before some steps has no others behind them. -/
theorem iterate_subset (h : u ⊆ w) (k : Nat) : g.iterate k u ⊆ g.iterate k w := by
  induction k generalizing u w with
  | zero => exact h
  | succ k ih =>
    refine ih fun d hd => ?_
    obtain ⟨c, hc, hd⟩ := List.mem_flatMap.1 hd
    exact List.mem_flatMap.2 ⟨c, h hc, hd⟩

/-- Agreement on a word covers all words without other symbols. -/
theorem AgreeFor.of_subset (h : g.AgreeFor g' n w) (hu : u ⊆ w) : g.AgreeFor g' n u :=
  fun k hk c hc => h k hk c (iterate_subset hu k hc)

/-- Copies of the start word bring in no symbol. -/
theorem initialWord_subset (g : Grammar) : g.initialWord ⊆ g.start := fun c hc => by
  rw [initialWord, Word.times_eq] at hc
  obtain ⟨copy, hcopy, hc⟩ := List.mem_flatten.1 hc
  rwa [← List.eq_of_mem_replicate hcopy]

/-- A copy of the start word has all of its symbols. -/
theorem subset_initialWord (h : 1 ≤ g.startRepeat) : g.start ⊆ g.initialWord := fun c hc => by
  rw [initialWord, Word.times_eq]
  exact List.mem_flatten.2 ⟨g.start, List.mem_replicate.2 ⟨by omega, rfl⟩, hc⟩

/-- Agreement on the generations of the start word is all that an expansion depends on. -/
theorem AgreeFor.expandsLike (h : g.AgreeFor g' g.iterationCount g.start)
    (hstart : g'.start = g.start) (hrepeat : g'.startRepeat = g.startRepeat)
    (hcount : g'.iterationCount = g.iterationCount) : g.ExpandsLike g' := by
  have hword : g'.initialWord = g.initialWord := by
    rw [initialWord, initialWord, hstart, hrepeat]
  have htally : g'.initialTally = g.initialTally := by
    rw [initialTally, initialTally, hstart, hrepeat]
  -- The tallies begin with the start word, the words with its copies; both are covered.
  have hwords : g.AgreeFor g' g.iterationCount g.initialWord := h.of_subset g.initialWord_subset
  have hproj : ∀ ceiling, g.projectedLength ceiling = g'.projectedLength ceiling := by
    intro ceiling
    rw [Grammar.projectedLength, Grammar.projectedLength, hcount, htally,
      h.projectFrom g.binds_initialTally]
  refine ⟨hproj, fun ceiling => ?_, ?_, fun n => ?_⟩
  · rw [Grammar.expand, Grammar.expand, hproj, hcount, hword, hwords.expandFrom]
  · rw [Grammar.projectedLengths, Grammar.projectedLengths, hcount, htally,
      h.lengthsAfter g.binds_initialTally]
  · rw [Grammar.generations, Grammar.generations, hcount, hword, hwords.take]

/-- The set holds the symbols of the start word and, with a symbol, those of its body. -/
structure Closed (g : Grammar) (R : Set Symbol) : Prop where
  start : ∀ c ∈ g.start, c ∈ R
  body : ∀ c ∈ R, ∀ body ∈ g.production? c, ∀ d ∈ body, d ∈ R

/-- What becomes of a symbol of a closed set is in the set. -/
theorem Closed.image {R : Set Symbol} (h : g.Closed R) {c d : Symbol} (hc : c ∈ R)
    (hd : d ∈ g.image c) : d ∈ R := by
  rw [Grammar.image] at hd
  cases hproduction : g.production? c with
  | none =>
    rw [hproduction, Option.getD_none, List.mem_singleton] at hd
    exact hd ▸ hc
  | some body =>
    rw [hproduction, Option.getD_some] at hd
    exact h.body c hc body hproduction d hd

/-- No step leaves a closed set. -/
theorem Closed.iterate {R : Set Symbol} (h : g.Closed R) (hw : ∀ c ∈ w, c ∈ R) (k : Nat) :
    ∀ c ∈ g.iterate k w, c ∈ R := by
  induction k generalizing w with
  | zero => exact hw
  | succ k ih =>
    refine ih fun d hd => ?_
    obtain ⟨c, hc, hd⟩ := List.mem_flatMap.1 hd
    exact h.image (hw c hc) hd

end Grammar

/-- Rules for symbols that no generation rewrites have no effect. Grammars with the same start that
agree on a closed set of symbols expand alike, whatever else they replace or skip; and a grammar
that was built from a record expands as before when its rules are changed for symbols that are
skipped or that are in none of its generations but perhaps the last. -/
theorem expandsLike_of_dead_rules (g : Grammar) :
    (∀ (g' : Grammar) (R : Set Symbol), g'.start = g.start → g'.startRepeat = g.startRepeat →
      g'.iterationCount = g.iterationCount → g.Closed R →
      (∀ c ∈ R, g.production? c = g'.production? c) → g.ExpandsLike g') ∧
    ∀ record : GrammarRecord, record.validate.outcome = .ok g → ∀ rules : RuleSet,
      (∀ c, rules.body? c ≠ g.rules.body? c →
        c ∈ g.skipped ∨ ∀ k < g.iterationCount, c ∉ g.generation k) →
      g.ExpandsLike { g with rules := rules } := by
  constructor
  · intro g' R hstart hrepeat hcount hclosed hagree
    have hstarts : g.AgreeFor g' g.iterationCount g.start := fun k _ c hc =>
      hagree c (hclosed.iterate hclosed.start k c hc)
    exact hstarts.expandsLike hstart hrepeat hcount
  · intro record hrecord rules hdead
    have hvalid := Grammar.valid_of_validate hrecord
    have hgenerations : g.AgreeFor { g with rules := rules } g.iterationCount g.initialWord := by
      intro k hk c hc
      show (if g.skipped.contains c then none else g.rules.body? c) =
        if g.skipped.contains c then none else rules.body? c
      -- Where the rules differ, the symbol is skipped or does not occur in the word.
      by_cases hsame : rules.body? c = g.rules.body? c
      · rw [hsame]
      · rcases hdead c hsame with hskipped | hnever
        · rw [if_pos (Std.ExtTreeSet.contains_iff_mem.2 hskipped),
            if_pos (Std.ExtTreeSet.contains_iff_mem.2 hskipped)]
        · exact absurd hc (hnever k hk)
    exact (hgenerations.of_subset (Grammar.subset_initialWord hvalid.startRepeat.1)).expandsLike
      rfl rfl rfl

/-- A skipped head and a head that never occurs: their rules are dropped, or changed. -/
theorem expandsLike_of_dead_rules_skipped :
    let record : GrammarRecord :=
      { start := "FS", rules := "F : FSF ; S : SS ; X : F", rotationAngle := 90, iterations := 2,
        skipped := "S" }
    let rules : RuleSet := RuleSet.empty.insert 'F' "FSF".toList
    let g : Grammar :=
      ⟨"FS".toList, (rules.insert 'S' "SS".toList).insert 'X' "F".toList, 2, 1,
        Std.ExtTreeSet.ofList ['S'], record.motion⟩
    record.validate.outcome = .ok g ∧
      g.ExpandsLike { g with rules := rules, skipped := ∅ } ∧
      g.ExpandsLike { g with rules := (rules.insert 'S' "X".toList).insert 'X' [] } := by
  intro record rules g
  have hrecord : record.validate.outcome = .ok g := by decide +kernel
  have hF : g.production? 'F' = some "FSF".toList := by decide +kernel
  have hS : g.production? 'S' = none := by decide +kernel
  refine ⟨hrecord, ?_, ?_⟩
  · refine (expandsLike_of_dead_rules g).1 _ {'F', 'S'} rfl rfl rfl ⟨?_, ?_⟩ ?_
    · simp [g]
    · rintro c (rfl | rfl) body hbody
      · rw [hF] at hbody
        cases hbody
        simp
      · rw [hS] at hbody
        cases hbody
    · rintro c (rfl | rfl)
      · decide +kernel
      · decide +kernel
  · refine (expandsLike_of_dead_rules g).2 record hrecord _ fun c hc => ?_
    by_cases hskipped : c = 'S'
    · subst hskipped
      exact Or.inl (by decide +kernel)
    · by_cases hnever : c = 'X'
      · subst hnever
        exact Or.inr (by decide +kernel)
      · simp [g, RuleSet.body?_insert, Ne.symm hskipped, Ne.symm hnever] at hc

end TurtleCurves
