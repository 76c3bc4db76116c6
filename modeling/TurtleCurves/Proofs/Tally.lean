import Mathlib.Algebra.BigOperators.Ring.Finset
import Mathlib.Algebra.Group.Action.Defs
import Mathlib.Algebra.Ring.Int.Defs
import TurtleCurves.Expansion.Tally

/-!
# Tallies count the symbols of generations

A tally stands for a word when every symbol's entry is the number of its occurrences, cut off at the
cap (`Tally.Counts`). `counts_initialTally` and `counts_nextTally` show that the tallies computed
along the generations stand for the generations, and `total_of_counts` reads the length of the word
off its tally. Beside that, a tally has entries for the symbols of its word and for no others
(`Tally.Binds`).

## Shape of the proof

Every addition to a tally is cut off at once, while a word has its full length. The two agree
because `capped` is a congruence: cutting off a summand or a factor early does not change a sum or
a product that is cut off in the end (`capped_add`, `capped_sum_mul`). So the entries after one
step are found without the cap first, as one sum over all entries (`count_passOn`), in which their
order no longer matters. `capped_sum_entries` then turns a sum over entries into a sum over the
symbols of the word; it is used once for the next tally and once for the total.
-/

namespace TurtleCurves

/-- The count that is kept of `n` occurrences. -/
def capped (n : Nat) : Nat :=
  min countCap n

/-- The cap is the greatest number of 128 bits. -/
theorem countCap_eq : countCap = 2 ^ 128 - 1 := rfl

/-- A number of 64 bits is below the cap. -/
theorem toNat_lt_countCap (l : UInt64) : l.toNat < countCap := by
  have hl : l.toNat < 2 ^ 64 := l.toNat_lt
  rw [countCap_eq]
  omega

@[simp] theorem capped_zero : capped 0 = 0 := rfl

/-- A limit below the cap is exceeded by the kept count exactly when it is by the true one. -/
theorem lt_capped_iff {l n : Nat} (hl : l < countCap) : l < capped n ↔ l < n := by
  rw [capped]
  omega

/-- Adding to a kept count gives the kept count of the sum. -/
theorem cappedAdd_capped (m n : Nat) : cappedAdd (capped m) n = capped (m + n) := by
  rw [cappedAdd, capped, capped]
  omega

/-! ## The cap is a congruence -/

/-- Cutting off summands early does not show in a sum that is cut off. -/
theorem capped_add {m m' n n' : Nat} (hm : capped m = capped m') (hn : capped n = capped n') :
    capped (m + n) = capped (m' + n') := by
  rw [capped, capped] at *
  omega

/-- Cutting off a factor early does not show in a product that is cut off. -/
theorem capped_mul (k n : Nat) : capped (k * capped n) = capped (k * n) := by
  rcases Nat.le_total n countCap with hn | hn
  · rw [show capped n = n from Nat.min_eq_right hn]
  · rcases Nat.eq_zero_or_pos k with rfl | hk
    · rw [Nat.zero_mul, Nat.zero_mul]
    · -- A factor above the cap makes any product but zero exceed the cap.
      have hcap : countCap ≤ k * countCap := Nat.le_mul_of_pos_left countCap hk
      have hle : k * countCap ≤ k * n := Nat.mul_le_mul_left k hn
      rw [show capped n = countCap from Nat.min_eq_left hn, capped, capped,
        Nat.min_eq_left hcap, Nat.min_eq_left (hcap.trans hle)]

/-- Cutting off factors early does not show in a sum of products that is cut off. -/
theorem capped_sum_mul {ι : Type*} (s : Finset ι) (f n : ι → Nat) :
    capped (∑ i ∈ s, f i * capped (n i)) = capped (∑ i ∈ s, f i * n i) := by
  classical
  induction s using Finset.induction_on with
  | empty => rfl
  | insert i s hi ih =>
    rw [Finset.sum_insert hi, Finset.sum_insert hi]
    exact capped_add (capped_mul _ _) ih

/-! ## Entries of a tally -/

namespace Tally

/-- The entry of a symbol; a symbol without an entry does not occur. -/
def count (tally : Tally) (symbol : Symbol) : Nat :=
  (tally[symbol]?).getD 0

@[simp] theorem count_empty (symbol : Symbol) : count ∅ symbol = 0 := by
  simp [count]

/-- What is added to the entry of a symbol leaves the others alone. -/
theorem count_add (tally : Tally) (symbol other : Symbol) (n : Nat) :
    (tally.add symbol n).count other =
      if symbol = other then cappedAdd (tally.count symbol) n else tally.count other := by
  simp only [count, add, Std.ExtTreeMap.getElem?_alter, Std.LawfulEqOrd.compare_eq_iff_eq]
  split <;> rfl

/-- Counting a word `n` times adds `n` for each place at which a symbol stands in it. -/
theorem count_addWord {tally : Tally} {symbol : Symbol} {m : Nat}
    (h : tally.count symbol = capped m) (w : Word) (n : Nat) :
    (tally.addWord w n).count symbol = capped (m + w.count symbol * n) := by
  -- By induction on the word, from any number `m` of occurrences before it.
  induction w generalizing tally m with
  | nil => simpa [addWord] using h
  | cons c w ih =>
    rw [addWord, List.foldl_cons, ← addWord]
    by_cases hc : c = symbol
    · have hstep : (tally.add c n).count symbol = capped (m + n) := by
        rw [count_add, if_pos hc, hc, h, cappedAdd_capped]
      rw [ih hstep, hc, List.count_cons_self, Nat.add_mul, Nat.one_mul]
      congr 1
      omega
    · have hstep : (tally.add c n).count symbol = capped m := by
        rw [count_add, if_neg hc, h]
      rw [ih hstep, List.count_cons_of_ne hc]

/-- The total is the sum of all entries, cut off once. -/
theorem total_eq (tally : Tally) : tally.total = capped (tally.toList.map Prod.snd).sum := by
  -- The fold starts from any sum that was already cut off; here it starts from zero.
  have hfold : ∀ (entries : List (Symbol × Nat)) (m : Nat),
      entries.foldl (fun sum e => cappedAdd sum e.2) (capped m) =
        capped (m + (entries.map Prod.snd).sum) := by
    intro entries
    induction entries with
    | nil => intro m; rfl
    | cons e entries ih =>
      intro m
      rw [List.foldl_cons, cappedAdd_capped, ih, List.map_cons, List.sum_cons, Nat.add_assoc]
  rw [total, Std.ExtTreeMap.foldl_eq_foldl_toList]
  simpa using hfold tally.toList 0

/-- No symbol has two entries. -/
theorem nodup_keys_toList (tally : Tally) : (tally.toList.map Prod.fst).Nodup := by
  rw [List.Nodup, List.pairwise_map]
  refine tally.distinct_keys_toList.imp ?_
  intro a b hab he
  exact hab (Std.LawfulEqOrd.compare_eq_iff_eq.2 he)

/-- An entry holds the count of its symbol. -/
theorem count_of_mem_toList {tally : Tally} {e : Symbol × Nat} (he : e ∈ tally.toList) :
    tally.count e.1 = e.2 := by
  have hget : tally[e.1]? = some e.2 := Std.ExtTreeMap.mem_toList_iff_getElem?_eq_some.1 he
  rw [count, hget, Option.getD_some]

/-- A symbol that occurs has an entry. -/
theorem mem_keys_toList {tally : Tally} {symbol : Symbol} (h : tally.count symbol ≠ 0) :
    symbol ∈ tally.toList.map Prod.fst := by
  rw [count] at h
  cases hget : tally[symbol]? with
  | none => rw [hget] at h; exact absurd rfl h
  | some n =>
    exact List.mem_map.2
      ⟨(symbol, n), Std.ExtTreeMap.mem_toList_iff_getElem?_eq_some.2 hget, rfl⟩

/-- The tally holds the number of occurrences of every symbol in the word, cut off at the cap. -/
def Counts (tally : Tally) (w : Word) : Prop :=
  ∀ symbol, tally.count symbol = capped (w.count symbol)

/-- A weighted sum over the entries of a tally is, up to the cap, the sum of the weights of the
symbols of the word that it counts. -/
theorem capped_sum_entries {tally : Tally} {w : Word} (h : tally.Counts w) (f : Symbol → Nat) :
    capped (tally.toList.map fun e => f e.1 * e.2).sum = capped (w.map f).sum := by
  have hentries : (tally.toList.map fun e => f e.1 * e.2).sum =
      ∑ c ∈ (tally.toList.map Prod.fst).toFinset, f c * capped (w.count c) := by
    rw [List.sum_toFinset _ tally.nodup_keys_toList, List.map_map]
    refine congrArg List.sum (List.map_congr_left fun e he => ?_)
    rw [Function.comp_apply, ← h e.1, count_of_mem_toList he]
  -- Every symbol of the word has an entry; the entries of other symbols add nothing.
  have hsub : w.toFinset ⊆ (tally.toList.map Prod.fst).toFinset := by
    intro c hc
    have hpos : 0 < w.count c := List.count_pos_iff.2 (List.mem_toFinset.1 hc)
    refine List.mem_toFinset.2 (mem_keys_toList ?_)
    rw [h c, capped, countCap_eq]
    omega
  have hword : (w.map f).sum =
      ∑ c ∈ (tally.toList.map Prod.fst).toFinset, f c * w.count c := by
    rw [Finset.sum_list_map_count]
    refine (Finset.sum_subset hsub fun c _ hc => ?_).trans (Finset.sum_congr rfl fun c _ => ?_)
    · rw [List.count_eq_zero_of_not_mem fun hm => hc (List.mem_toFinset.2 hm), zero_nsmul]
    · rw [smul_eq_mul, Nat.mul_comm]
  rw [hentries, hword, capped_sum_mul]

/-- The total of a tally is the length of the word that it counts. -/
theorem total_of_counts {tally : Tally} {w : Word} (h : tally.Counts w) :
    tally.total = capped w.length := by
  have hsum := capped_sum_entries h fun _ => 1
  simp only [Nat.one_mul] at hsum
  rw [total_eq, hsum]
  simp

/-- Adding to a symbol gives it an entry, and no other symbol. -/
theorem mem_add {tally : Tally} {symbol other : Symbol} {n : Nat} :
    other ∈ tally.add symbol n ↔ other = symbol ∨ other ∈ tally := by
  simp only [add, Std.ExtTreeMap.mem_alter, Std.LawfulEqOrd.compare_eq_iff_eq]
  by_cases h : symbol = other
  · simp [h]
  · simp [h, Ne.symm h]

/-- Counting a word gives entries to its symbols and to no others. -/
theorem mem_addWord {tally : Tally} {symbol : Symbol} {w : Word} {n : Nat} :
    symbol ∈ tally.addWord w n ↔ symbol ∈ tally ∨ symbol ∈ w := by
  induction w generalizing tally with
  | nil => simp [addWord]
  | cons c w ih =>
    rw [addWord, List.foldl_cons, ← addWord, ih, mem_add, List.mem_cons, or_comm (a := symbol = c),
      or_assoc]

/-- A symbol is bound if one of the entries is its own. -/
theorem mem_iff_exists_mem_toList {tally : Tally} {symbol : Symbol} :
    symbol ∈ tally ↔ ∃ e ∈ tally.toList, e.1 = symbol := by
  rw [← Std.ExtTreeMap.mem_keys, ← Std.ExtTreeMap.map_fst_toList_eq_keys, List.mem_map]

/-- The symbols with an entry are the symbols of the word. -/
def Binds (tally : Tally) (w : Word) : Prop :=
  ∀ symbol, symbol ∈ tally ↔ symbol ∈ w

end Tally

/-! ## Tallies of generations -/

namespace Grammar

/-- The first tally counts the first generation. -/
theorem counts_initialTally (g : Grammar) : g.initialTally.Counts g.initialWord := by
  intro c
  rw [initialTally, Tally.count_addWord (m := 0) (Tally.count_empty c), initialWord, Word.times_eq,
    List.count_flatten, List.map_replicate, List.sum_replicate_nat, Nat.zero_add, Nat.mul_comm]

/-- What a list of entries passes on to a symbol, cut off once. -/
theorem count_passOn (g : Grammar) (entries : List (Symbol × Nat)) (symbol : Symbol) :
    (g.passOn entries).count symbol =
      capped (entries.map fun e => (g.image e.1).count symbol * e.2).sum := by
  -- The fold over the entries starts from any tally that has `m` occurrences so far.
  have hfold : ∀ (entries : List (Symbol × Nat)) (t : Tally) (m : Nat),
      t.count symbol = capped m →
      (entries.foldl (fun t e => t.addWord (g.image e.1) e.2) t).count symbol =
        capped (m + (entries.map fun e => (g.image e.1).count symbol * e.2).sum) := by
    intro entries
    induction entries with
    | nil => intro t m h; simpa using h
    | cons e entries ih =>
      intro t m h
      rw [List.foldl_cons, ih _ _ (Tally.count_addWord h _ _), List.map_cons, List.sum_cons,
        Nat.add_assoc]
  simpa [passOn] using hfold entries ∅ 0 (Tally.count_empty symbol)

/-- Passing on the entries of a word's tally, in whatever order, counts the symbols of the next
word. -/
theorem counts_passOn (g : Grammar) {tally : Tally} {w : Word} (h : tally.Counts w)
    {entries : List (Symbol × Nat)} (hperm : entries.Perm tally.toList) :
    (g.passOn entries).Counts (g.step w) := by
  intro c
  rw [count_passOn, (hperm.map _).sum_eq,
    Tally.capped_sum_entries h fun d => (g.image d).count c, step, List.count_flatMap]
  rfl

/-- The tally after one that counts a word counts the next word. -/
theorem counts_nextTally (g : Grammar) {tally : Tally} {w : Word} (h : tally.Counts w) :
    (g.nextTally tally).Counts (g.step w) :=
  g.counts_passOn h (List.Perm.refl _)

/-- A tally that passes itself on counts all later words as well: their symbols may still change
places, or be more than the cap, but the tally no longer shows it. -/
theorem counts_iterate_of_nextTally_eq (g : Grammar) {tally : Tally} {w : Word}
    (h : tally.Counts w) (hfix : g.nextTally tally = tally) (k : Nat) :
    tally.Counts (g.iterate k w) := by
  induction k with
  | zero => exact h
  | succ k ih =>
    rw [iterate_succ, ← hfix]
    exact g.counts_nextTally ih

/-- The first tally has the entries of the start word, even if that is written no times. -/
theorem binds_initialTally (g : Grammar) : g.initialTally.Binds g.start := fun c => by
  rw [initialTally, Tally.mem_addWord]
  simp

/-- Entries are passed on to the symbols of the images, even if they are zero. -/
theorem mem_passOn {g : Grammar} {entries : List (Symbol × Nat)} {symbol : Symbol} :
    symbol ∈ g.passOn entries ↔ ∃ e ∈ entries, symbol ∈ g.image e.1 := by
  have hfold : ∀ (entries : List (Symbol × Nat)) (t : Tally),
      symbol ∈ entries.foldl (fun t e => t.addWord (g.image e.1) e.2) t ↔
        symbol ∈ t ∨ ∃ e ∈ entries, symbol ∈ g.image e.1 := by
    intro entries
    induction entries with
    | nil => intro t; simp
    | cons e entries ih =>
      intro t
      rw [List.foldl_cons, ih, Tally.mem_addWord, List.exists_mem_cons_iff, or_assoc]
  rw [passOn, hfold]
  simp

/-- Passing on the entries of a word's tally, in whatever order, gives entries to the symbols of the
next word. -/
theorem binds_passOn (g : Grammar) {tally : Tally} {w : Word} (h : tally.Binds w)
    {entries : List (Symbol × Nat)} (hperm : entries.Perm tally.toList) :
    (g.passOn entries).Binds (g.step w) := fun c => by
  rw [mem_passOn, step, List.mem_flatMap]
  constructor
  · rintro ⟨e, he, hc⟩
    have hmem : e.1 ∈ tally := Tally.mem_iff_exists_mem_toList.2 ⟨e, hperm.mem_iff.1 he, rfl⟩
    exact ⟨e.1, (h e.1).1 hmem, hc⟩
  · rintro ⟨d, hd, hc⟩
    obtain ⟨e, he, rfl⟩ := Tally.mem_iff_exists_mem_toList.1 ((h d).2 hd)
    exact ⟨e, hperm.mem_iff.2 he, hc⟩

/-- The tally after one with the entries of a word has the entries of the next word. -/
theorem binds_nextTally (g : Grammar) {tally : Tally} {w : Word} (h : tally.Binds w) :
    (g.nextTally tally).Binds (g.step w) :=
  g.binds_passOn h (List.Perm.refl _)

end Grammar

end TurtleCurves
