import TurtleCurves.Grammar.Generation
import TurtleCurves.Proofs.Nesting

/-!
# Brackets under rewriting

A grammar keeps branches for a symbol table if its start word and the bodies of its productions are
balanced and the symbols that open or close branches are never replaced. Every generation of such a
grammar is balanced, and one step nests branches deeper by at most the nesting of a body.

## Shape of the proof

Balance speaks of the beginnings of a word, and a beginning of the next word may end inside a body.
`Covers` splits along a concatenation where balance does not: it says how many open branches a word
needs when it starts, and `covers_append` passes the branches that are open on to the second part.
`nesting_append` does the same for the greatest depth. With the two, one step is an induction on the
word whose only case distinction is on the image of a single symbol (`image_cases`): it is the
symbol itself, or the symbol leaves the depth alone and its image is a balanced body.
-/

namespace TurtleCurves

namespace SymbolTable

variable {α : Type} {table : SymbolTable α}

/-! ## Concatenation -/

/-- A word that starts with `n` open branches closes no branch that is not open. -/
def Covers (table : SymbolTable α) (n : Int) (w : Word) : Prop :=
  ∀ p, p <+: w → 0 ≤ n + table.depth p

theorem covers_nil {n : Int} : table.Covers n [] ↔ 0 ≤ n := by
  constructor
  · intro h
    simpa using h [] (List.prefix_refl [])
  · intro hn p hp
    rw [List.prefix_nil.1 hp, depth_nil, Int.add_zero]
    exact hn

/-- The rest of a word starts with the branches that its first symbol leaves open. -/
theorem covers_cons {n : Int} {c : Symbol} {w : Word} :
    table.Covers n (c :: w) ↔ 0 ≤ n ∧ table.Covers (n + (table.command c).rise) w := by
  constructor
  · intro h
    refine ⟨by simpa using h [] List.nil_prefix, fun p hp => ?_⟩
    have hcp := h (c :: p) (List.cons_prefix_cons.2 ⟨rfl, hp⟩)
    rw [depth_cons] at hcp
    omega
  · rintro ⟨hn, hw⟩ p hp
    rcases List.prefix_cons_iff.1 hp with rfl | ⟨q, rfl, hq⟩
    · rw [depth_nil, Int.add_zero]
      exact hn
    · have hcovered := hw q hq
      rw [depth_cons]
      omega

/-- The number of branches that are open before a word is not negative. -/
theorem Covers.nonneg {n : Int} {w : Word} (h : table.Covers n w) : 0 ≤ n := by
  simpa using h [] List.nil_prefix

/-- The second part starts with the branches that the first part leaves open. -/
theorem covers_append {n : Int} {u v : Word} :
    table.Covers n (u ++ v) ↔ table.Covers n u ∧ table.Covers (n + table.depth u) v := by
  -- By induction on the first part, for any number of branches that are open before it.
  induction u generalizing n with
  | nil =>
    rw [List.nil_append, covers_nil, depth_nil, Int.add_zero]
    exact ⟨fun h => ⟨h.nonneg, h⟩, fun h => h.2⟩
  | cons c u ih =>
    rw [List.cons_append, covers_cons, covers_cons, ih, depth_cons, Int.add_assoc, and_assoc]

/-- A balanced word is one that needs no open branch and leaves none open. -/
theorem balanced_iff {w : Word} :
    table.Balanced w ↔ table.Covers 0 w ∧ table.depth w = 0 := by
  constructor
  · intro h
    refine ⟨fun p hp => ?_, h.depth_eq_zero⟩
    rw [Int.zero_add]
    exact h.nonneg p hp
  · rintro ⟨hcovers, hdepth⟩
    refine ⟨fun p hp => ?_, hdepth⟩
    rw [← Int.zero_add (table.depth p)]
    exact hcovers p hp

/-- A balanced word closes only its own branches, however many are open before it. -/
theorem Balanced.covers {w : Word} (h : table.Balanced w) {n : Int} (hn : 0 ≤ n) :
    table.Covers n w := by
  intro p hp
  have hp' := h.nonneg p hp
  omega

/-- Every symbol but one that closes a branch can stand alone. -/
theorem covers_singleton {c : Symbol} (hc : table.command c ≠ .pop) : table.Covers 0 [c] := by
  rw [covers_cons, covers_nil, Int.zero_add]
  exact ⟨Int.le_refl 0, Command.rise_nonneg hc⟩

/-- A balanced word between a symbol that opens a branch and one that closes it is balanced. -/
theorem balanced_branch {a b : Symbol} {w : Word} (ha : table.command a = .push)
    (hb : table.command b = .pop) (hw : table.Balanced w) : table.Balanced (a :: w ++ [b]) := by
  have hopen : table.depth (a :: w) = 1 := by
    rw [depth_cons, ha, hw.depth_eq_zero]
    rfl
  have hclose : table.depth [b] = -1 := by
    rw [depth_cons, hb]
    rfl
  -- Inside, one branch is open; the last symbol closes it.
  refine balanced_iff.2 ⟨covers_append.2 ⟨covers_cons.2 ⟨Int.le_refl 0, ?_⟩, ?_⟩, ?_⟩
  · rw [ha]
    exact hw.covers Int.one_nonneg
  · rw [hopen, covers_cons, covers_nil, hb, Command.rise]
    exact ⟨by decide, by decide⟩
  · rw [depth_append, hopen, hclose]
    decide

/-- The second part is nested into the branches that the first part leaves open. -/
theorem nesting_append (u v : Word) :
    table.nesting (u ++ v) = max (table.nesting u) (table.depth u + table.nesting v) := by
  induction u with
  | nil =>
    rw [List.nil_append, depth_nil, Int.zero_add]
    exact (Int.max_eq_right (table.nesting_nonneg v)).symm
  | cons c u ih =>
    rw [List.cons_append, nesting, nesting, depth_cons, ih]
    omega

/-! ## Copies of a word -/

/-- Copies of a word that closes what it opens do so too. -/
theorem depth_times {w : Word} (h : table.depth w = 0) (n : Nat) :
    table.depth (Word.times n w) = 0 := by
  rw [Word.times_eq]
  induction n with
  | zero => rfl
  | succ n ih => rw [List.replicate_succ, List.flatten_cons, depth_append, h, ih, Int.add_zero]

/-- Copies of a balanced word are balanced. -/
theorem balanced_times {w : Word} (h : table.Balanced w) (n : Nat) :
    table.Balanced (Word.times n w) := by
  refine balanced_iff.2 ⟨?_, depth_times h.depth_eq_zero n⟩
  rw [Word.times_eq]
  induction n with
  | zero => exact covers_nil.2 (Int.le_refl 0)
  | succ n ih =>
    rw [List.replicate_succ, List.flatten_cons, covers_append, h.depth_eq_zero, Int.add_zero]
    exact ⟨h.covers (Int.le_refl 0), ih⟩

/-- Copies of a word that closes what it opens are nested no deeper than the word. -/
theorem nesting_times_le {w : Word} (h : table.depth w = 0) (n : Nat) :
    table.nesting (Word.times n w) ≤ table.nesting w := by
  rw [Word.times_eq]
  induction n with
  | zero => exact table.nesting_nonneg w
  | succ n ih =>
    rw [List.replicate_succ, List.flatten_cons, nesting_append, h, Int.zero_add]
    exact Int.max_le.2 ⟨Int.le_refl _, ih⟩

end SymbolTable

namespace Grammar

variable {α : Type} {g : Grammar} {table : SymbolTable α}

/-! ## Grammars that keep branches -/

/-- The rules whose heads are not skipped. -/
def productions (g : Grammar) : List (Symbol × Word) :=
  g.rules.toList.filter fun rule => !g.skipped.contains rule.1

/-- The productions are the bodies that symbols are replaced by. -/
theorem mem_productions {c : Symbol} {body : Word} :
    (c, body) ∈ g.productions ↔ g.production? c = some body := by
  rw [productions, List.mem_filter, RuleSet.mem_toList, production?]
  cases g.skipped.contains c <;> simp

/-- The greatest nesting of the body of a production, 0 if there is none. -/
def bodyNesting (g : Grammar) (table : SymbolTable α) : Int :=
  (g.productions.map fun rule => table.nesting rule.2).foldr max 0

/-- The greatest nesting of a body is the least bound that all bodies keep, and no less than 0. -/
theorem bodyNesting_le_iff {n : Int} :
    g.bodyNesting table ≤ n ↔
      0 ≤ n ∧ ∀ c body, g.production? c = some body → table.nesting body ≤ n := by
  -- A maximum over a list is bounded if each entry is, which is an induction on the list.
  have hlist : ∀ rules : List (Symbol × Word),
      (rules.map fun rule => table.nesting rule.2).foldr max 0 ≤ n ↔
        0 ≤ n ∧ ∀ rule ∈ rules, table.nesting rule.2 ≤ n := by
    intro rules
    induction rules with
    | nil => simp
    | cons rule rules ih =>
      rw [List.map_cons, List.foldr_cons, Int.max_le, ih, List.forall_mem_cons]
      exact and_left_comm
  rw [bodyNesting, hlist]
  refine and_congr_right fun _ => ⟨fun h c body hbody => ?_, fun h rule hrule => ?_⟩
  · exact h (c, body) (mem_productions.2 hbody)
  · exact h rule.1 rule.2 (mem_productions.1 hrule)

/-- No body is nested deeper than the deepest. -/
theorem nesting_body_le {c : Symbol} {body : Word} (h : g.production? c = some body) :
    table.nesting body ≤ g.bodyNesting table :=
  (bodyNesting_le_iff.1 (Int.le_refl _)).2 c body h

theorem bodyNesting_nonneg (g : Grammar) (table : SymbolTable α) : 0 ≤ g.bodyNesting table :=
  (bodyNesting_le_iff.1 (Int.le_refl _)).1

/-- The start word and the bodies are balanced, and what opens or closes a branch is never
replaced. -/
structure KeepsBranches (g : Grammar) (table : SymbolTable α) : Prop where
  start : table.Balanced g.start
  brackets : ∀ c, table.command c = .push ∨ table.command c = .pop → g.production? c = none
  bodies : ∀ c body, g.production? c = some body → table.Balanced body

instance [DecidableEq α] : Decidable (g.KeepsBranches table) :=
  decidable_of_iff
    (table.Balanced g.start ∧ ∀ rule ∈ g.productions,
      ¬ (table.command rule.1 = .push ∨ table.command rule.1 = .pop) ∧ table.Balanced rule.2) <| by
    constructor
    · rintro ⟨hstart, hrules⟩
      refine ⟨hstart, fun c hc => ?_, fun c body hbody => ?_⟩
      · cases hbody : g.production? c with
        | none => rfl
        | some body => exact absurd hc (hrules _ (mem_productions.2 hbody)).1
      · exact (hrules _ (mem_productions.2 hbody)).2
    · intro h
      refine ⟨h.start, fun rule hrule => ?_⟩
      have hbody : g.production? rule.1 = some rule.2 := mem_productions.1 hrule
      refine ⟨fun hc => ?_, h.bodies _ _ hbody⟩
      rw [h.brackets _ hc] at hbody
      cases hbody

namespace KeepsBranches

variable (h : g.KeepsBranches table)

include h

/-! ## One symbol -/

/-- A symbol stays, or it neither opens nor closes a branch and is replaced by a balanced body. -/
theorem image_cases (c : Symbol) :
    g.image c = [c] ∨
      (table.command c).rise = 0 ∧ table.Balanced (g.image c) ∧
        table.nesting (g.image c) ≤ g.bodyNesting table := by
  rw [image]
  cases hc : g.production? c with
  | none => exact Or.inl rfl
  | some body =>
    refine Or.inr ⟨?_, h.bodies c body hc, nesting_body_le hc⟩
    -- What is replaced is no bracket, so it leaves the depth alone.
    have hbracket := fun hcmd => h.brackets c hcmd
    rw [hc] at hbracket
    cases hcmd : table.command c with
    | push => exact absurd (hbracket (Or.inl hcmd)) (Option.some_ne_none body)
    | pop => exact absurd (hbracket (Or.inr hcmd)) (Option.some_ne_none body)
    | _ => rfl

/-- A symbol and what becomes of it change the depth alike. -/
theorem depth_image (c : Symbol) : table.depth (g.image c) = (table.command c).rise := by
  rcases h.image_cases c with himage | ⟨hrise, hbalanced, -⟩
  · rw [himage, SymbolTable.depth_cons, SymbolTable.depth_nil, Int.add_zero]
  · rw [hrise, hbalanced.depth_eq_zero]

/-- What becomes of a symbol needs no more open branches than the symbol. -/
theorem covers_image {n : Int} {c : Symbol} (hn : 0 ≤ n) (hc : 0 ≤ n + (table.command c).rise) :
    table.Covers n (g.image c) := by
  rcases h.image_cases c with himage | ⟨-, hbalanced, -⟩
  · rw [himage, SymbolTable.covers_cons, SymbolTable.covers_nil]
    exact ⟨hn, hc⟩
  · exact hbalanced.covers hn

/-- What becomes of a symbol is nested at most as deep as a body in the branch that the symbol
opens. -/
theorem nesting_image_le (c : Symbol) :
    table.nesting (g.image c) ≤ max 0 (table.command c).rise + g.bodyNesting table := by
  have hbody := g.bodyNesting_nonneg table
  rcases h.image_cases c with himage | ⟨-, -, hle⟩
  · rw [himage, SymbolTable.nesting, SymbolTable.nesting]
    omega
  · omega

/-! ## One step -/

/-- A step changes no depth. -/
theorem depth_step (w : Word) : table.depth (g.step w) = table.depth w := by
  induction w with
  | nil => rfl
  | cons c w ih =>
    rw [step_cons, SymbolTable.depth_append, h.depth_image, ih, SymbolTable.depth_cons]

/-- A step needs no more open branches than the word had needed. -/
theorem covers_step {n : Int} {w : Word} (hw : table.Covers n w) :
    table.Covers n (g.step w) := by
  induction w generalizing n with
  | nil => exact hw
  | cons c w ih =>
    obtain ⟨hn, hrest⟩ := SymbolTable.covers_cons.1 hw
    -- What `c` leaves open its image leaves open too, so the rest starts with as many branches.
    rw [step_cons, SymbolTable.covers_append, h.depth_image]
    exact ⟨h.covers_image hn hrest.nonneg, ih hrest⟩

/-- A step keeps words balanced. -/
theorem balanced_step {w : Word} (hw : table.Balanced w) : table.Balanced (g.step w) := by
  obtain ⟨hcovers, hdepth⟩ := SymbolTable.balanced_iff.1 hw
  refine SymbolTable.balanced_iff.2 ⟨h.covers_step hcovers, ?_⟩
  rw [h.depth_step, hdepth]

/-- A step puts one body on top of what is open. -/
theorem nesting_step_le (w : Word) :
    table.nesting (g.step w) ≤ table.nesting w + g.bodyNesting table := by
  induction w with
  | nil => exact Int.le_add_of_nonneg_right (g.bodyNesting_nonneg table)
  | cons c w ih =>
    -- The rest lies as deep behind the image as behind the symbol, so bodies do not add up within
    -- one step.
    have himage := h.nesting_image_le c
    have hrest := table.nesting_nonneg w
    rw [step_cons, SymbolTable.nesting_append, h.depth_image, SymbolTable.nesting]
    omega

/-! ## Generations -/

/-- Every generation is balanced. -/
theorem balanced_generation (k : Nat) : table.Balanced (g.generation k) := by
  induction k with
  | zero => exact SymbolTable.balanced_times h.start g.startRepeat
  | succ k ih =>
    rw [generation_succ]
    exact h.balanced_step ih

/-- After `k` steps branches are nested deeper by at most `k` bodies. -/
theorem nesting_generation_le (k : Nat) :
    table.nesting (g.generation k) ≤ table.nesting g.start + k * g.bodyNesting table := by
  induction k with
  | zero =>
    rw [Int.natCast_zero, Int.zero_mul, Int.add_zero]
    exact SymbolTable.nesting_times_le h.start.depth_eq_zero g.startRepeat
  | succ k ih =>
    calc table.nesting (g.generation (k + 1))
        = table.nesting (g.step (g.generation k)) := by rw [generation_succ]
      _ ≤ table.nesting (g.generation k) + g.bodyNesting table := h.nesting_step_le _
      _ ≤ table.nesting g.start + k * g.bodyNesting table + g.bodyNesting table :=
        Int.add_le_add_right ih _
      _ = table.nesting g.start + (k + 1 : Nat) * g.bodyNesting table := by
        rw [Int.natCast_add, Int.natCast_one, Int.add_mul, Int.one_mul, Int.add_assoc]

end KeepsBranches

end Grammar

end TurtleCurves
