import TurtleCurves.Proofs.Bracketing
import TurtleCurves.Proofs.Branch
import TurtleCurves.Proofs.Polylines

/-!
# Colours

Every colour that a turtle has, saved or not, is an entry of the palette, and so is every colour
that a path announces or that one of its polylines has. The colour after a word is known from the
word alone: it is the number of its changes of colour that are not inside a closed branch, counted
around the palette.

## Shape of the proof

The bounds are an invariant of the effects (`InPalette.of_effect`). Since colours come back from the
stack, it speaks of the saved turtles too.

For the number of changes, `openToggles` is additive along a concatenation whose second part closes
only what it opens itself (`openToggles_append`): no branch is then closed across the border. Of the
last symbol of a word there are three kinds. A change of colour counts one more and any other symbol
but a return counts nothing. A return leads back to the machine before the branch that it closes
(`exists_run_of_return`), and inside that branch nothing counts any more.
-/

namespace TurtleCurves

/-! ## Branches by position -/

namespace SymbolTable

variable {α : Type} (table : SymbolTable α)

/-- The kinds of the commands of a word. -/
def kinds (w : Word) : List (Command Unit) :=
  w.map fun c => (table.command c).kind

/-- The symbols at the positions `j` and `k` open and close one branch. -/
structure Pair (w : Word) (j k : Nat) : Prop where
  lt : j < k
  opens : (table.kinds w)[j]? = some .push
  closes : (table.kinds w)[k]? = some .pop
  inner : table.Balanced ((w.take k).drop (j + 1))

instance (w : Word) (j k : Nat) : Decidable (table.Pair w j k) :=
  decidable_of_iff
    (j < k ∧ (table.kinds w)[j]? = some .push ∧ (table.kinds w)[k]? = some .pop ∧
      table.Balanced ((w.take k).drop (j + 1)))
    ⟨fun h => ⟨h.1, h.2.1, h.2.2.1, h.2.2.2⟩, fun h => ⟨h.lt, h.opens, h.closes, h.inner⟩⟩

/-- The position `i` is inside a branch that the word closes. -/
def Enclosed (w : Word) (i : Nat) : Prop :=
  ∃ j < i, ∃ k < w.length, i < k ∧ table.Pair w j k

instance (w : Word) (i : Nat) : Decidable (table.Enclosed w i) :=
  inferInstanceAs (Decidable (∃ j < i, ∃ k < w.length, i < k ∧ table.Pair w j k))

/-- The number of changes of colour that are not inside a closed branch. -/
def openToggles (w : Word) : Nat :=
  (List.range w.length).countP fun i =>
    (table.kinds w)[i]? = some .colorToggle ∧ ¬ table.Enclosed w i

variable {table}

@[simp] theorem length_kinds (w : Word) : (table.kinds w).length = w.length :=
  List.length_map _

theorem kinds_append (u v : Word) : table.kinds (u ++ v) = table.kinds u ++ table.kinds v :=
  List.map_append

/-- A position of the first part has the kind that it has there. -/
theorem kinds_append_left {u : Word} {i : Nat} (v : Word) (hi : i < u.length) :
    (table.kinds (u ++ v))[i]? = (table.kinds u)[i]? := by
  rw [kinds_append, List.getElem?_append_left (by rwa [length_kinds])]

/-- A position behind the first part is one of the second part, counted from its beginning. -/
theorem kinds_append_right (u v : Word) (i : Nat) :
    (table.kinds (u ++ v))[u.length + i]? = (table.kinds v)[i]? := by
  rw [kinds_append, List.getElem?_append_right (by simp), length_kinds, Nat.add_sub_cancel_left]

/-- The kind at a position is that of the symbol that stands there. -/
theorem kinds_eq_some_iff {w : Word} {i : Nat} {kind : Command Unit} :
    (table.kinds w)[i]? = some kind ↔ ∃ c, w[i]? = some c ∧ (table.command c).kind = kind := by
  rw [kinds, List.getElem?_map, Option.map_eq_some_iff]

/-- Whether two positions open and close a branch does not depend on what follows. -/
theorem pair_append_left_iff {u : Word} {j k : Nat} (v : Word) (hk : k < u.length) :
    table.Pair (u ++ v) j k ↔ table.Pair u j k := by
  constructor
  · rintro ⟨hlt, hopens, hcloses, hinner⟩
    rw [kinds_append_left v (hlt.trans hk)] at hopens
    rw [kinds_append_left v hk] at hcloses
    rw [List.take_append_of_le_length hk.le] at hinner
    exact ⟨hlt, hopens, hcloses, hinner⟩
  · rintro ⟨hlt, hopens, hcloses, hinner⟩
    refine ⟨hlt, ?_, ?_, ?_⟩
    · rwa [kinds_append_left v (hlt.trans hk)]
    · rwa [kinds_append_left v hk]
    · rwa [List.take_append_of_le_length hk.le]

/-- Whether two positions open and close a branch does not depend on what stands before. -/
theorem pair_append_right_iff (u v : Word) (j k : Nat) :
    table.Pair (u ++ v) (u.length + j) (u.length + k) ↔ table.Pair v j k := by
  have hinner : ((u ++ v).take (u.length + k)).drop (u.length + j + 1) =
      (v.take k).drop (j + 1) := by
    rw [List.take_length_add_append, Nat.add_assoc, List.drop_length_add_append]
  constructor
  · rintro ⟨hlt, hopens, hcloses, hbalanced⟩
    rw [kinds_append_right] at hopens hcloses
    rw [hinner] at hbalanced
    exact ⟨Nat.lt_of_add_lt_add_left hlt, hopens, hcloses, hbalanced⟩
  · rintro ⟨hlt, hopens, hcloses, hbalanced⟩
    refine ⟨Nat.add_lt_add_left hlt _, ?_, ?_, ?_⟩
    · rwa [kinds_append_right]
    · rwa [kinds_append_right]
    · rwa [hinner]

/-- The symbol behind a beginning that closes a branch lowers its depth by one. -/
theorem Covers.one_le_depth_take {v : Word} (hv : table.Covers 0 v) {k : Nat}
    (hk : (table.kinds v)[k]? = some .pop) : 1 ≤ table.depth (v.take k) := by
  obtain ⟨d, hd, hkind⟩ := kinds_eq_some_iff.1 hk
  -- With the symbol at `k` the depth is still not below zero, and that symbol lowers it.
  have hcovered := hv (v.take (k + 1)) (List.take_prefix _ _)
  have hrise : (table.command d).rise = -1 := by
    rw [Command.kind_eq_pop.1 hkind]
    rfl
  rw [List.take_add_one, hd, Option.toList_some, depth_append, depth_cons, depth_nil, hrise]
    at hcovered
  omega

/-- No branch that `u` opens is closed in `v` if `v` closes only its own branches. -/
theorem Covers.not_pair {u v : Word} (hv : table.Covers 0 v) {j k : Nat} (hj : j < u.length)
    (hk : u.length ≤ k) : ¬ table.Pair (u ++ v) j k := by
  rintro ⟨-, -, hcloses, hinner⟩
  obtain ⟨n, rfl⟩ := Nat.exists_eq_add_of_le hk
  rw [kinds_append_right] at hcloses
  rw [List.take_length_add_append, List.drop_append_of_le_length (i := j + 1) hj] at hinner
  -- What is between the two would be balanced. Its first part ends no lower than it began, and the
  -- second part ends higher.
  have hrest : 0 ≤ table.depth (u.drop (j + 1)) := hinner.nonneg _ (List.prefix_append _ _)
  have hzero := hinner.depth_eq_zero
  rw [depth_append] at hzero
  have hpos := hv.one_le_depth_take hcloses
  omega

/-- A second part that closes only its own branches encloses nothing of the first part. -/
theorem enclosed_append_left_iff {u v : Word} (hv : table.Covers 0 v) {i : Nat}
    (hi : i < u.length) : table.Enclosed (u ++ v) i ↔ table.Enclosed u i := by
  constructor
  · rintro ⟨j, hj, k, -, hk, hpair⟩
    have hku : k < u.length := by
      by_contra hle
      exact hv.not_pair (hj.trans hi) (Nat.le_of_not_lt hle) hpair
    exact ⟨j, hj, k, hku, hk, (pair_append_left_iff v hku).1 hpair⟩
  · rintro ⟨j, hj, k, hku, hk, hpair⟩
    refine ⟨j, hj, k, ?_, hk, (pair_append_left_iff v hku).2 hpair⟩
    rw [List.length_append]
    exact Nat.lt_add_right _ hku

/-- The branches that enclose a position of the second part are its own. -/
theorem enclosed_append_right_iff {u v : Word} (hv : table.Covers 0 v) (i : Nat) :
    table.Enclosed (u ++ v) (u.length + i) ↔ table.Enclosed v i := by
  constructor
  · rintro ⟨j, hj, k, hkw, hk, hpair⟩
    have hju : u.length ≤ j := by
      by_contra hlt
      exact hv.not_pair (Nat.lt_of_not_le hlt) (by omega) hpair
    obtain ⟨j, rfl⟩ := Nat.exists_eq_add_of_le hju
    obtain ⟨k, rfl⟩ := Nat.exists_eq_add_of_le (hju.trans hpair.lt.le)
    rw [List.length_append] at hkw
    exact ⟨j, by omega, k, by omega, by omega, (pair_append_right_iff u v j k).1 hpair⟩
  · rintro ⟨j, hj, k, hkv, hk, hpair⟩
    refine ⟨u.length + j, by omega, u.length + k, ?_, by omega,
      (pair_append_right_iff u v j k).2 hpair⟩
    rw [List.length_append]
    omega

/-! ## The changes that count -/

/-- The changes of two parts add up if the second one closes only its own branches. -/
theorem openToggles_append {u v : Word} (hv : table.Covers 0 v) :
    table.openToggles (u ++ v) = table.openToggles u + table.openToggles v := by
  -- The positions of the whole are those of `u` and, moved by its length, those of `v`.
  rw [openToggles, List.length_append, List.range_add, List.countP_append, List.countP_map]
  congr 1
  · refine List.countP_congr fun i hi => ?_
    have hiu : i < u.length := List.mem_range.1 hi
    simp only [kinds_append_left v hiu, enclosed_append_left_iff hv hiu]
  · refine List.countP_congr fun i _ => ?_
    simp only [Function.comp_apply, kinds_append_right, enclosed_append_right_iff hv]

/-- A single symbol counts if it changes the colour. -/
theorem openToggles_singleton (c : Symbol) :
    table.openToggles [c] = if (table.command c).kind = .colorToggle then 1 else 0 := by
  have houter : ¬ table.Enclosed [c] 0 := by
    rintro ⟨j, hj, -⟩
    exact Nat.not_lt_zero j hj
  have hkind : (table.kinds [c])[0]? = some (table.command c).kind := rfl
  rw [openToggles, List.length_singleton, List.range_one, List.countP_singleton, hkind]
  simp only [houter, not_false_eq_true, and_true, Option.some.injEq, decide_eq_true_eq]

/-- Nothing counts inside a closed branch. -/
theorem openToggles_branch {a b : Symbol} {w : Word} (ha : table.command a = .push)
    (hb : table.command b = .pop) (hw : table.Balanced w) :
    table.openToggles (a :: w ++ [b]) = 0 := by
  have hopens : (table.kinds (a :: w ++ [b]))[0]? = some .push :=
    kinds_eq_some_iff.2 ⟨a, rfl, Command.kind_eq_push.2 ha⟩
  have hcloses : (table.kinds (a :: w ++ [b]))[w.length + 1]? = some .pop :=
    kinds_eq_some_iff.2 ⟨b, by simp, Command.kind_eq_pop.2 hb⟩
  have hpair : table.Pair (a :: w ++ [b]) 0 (w.length + 1) := by
    refine ⟨Nat.succ_pos _, hopens, hcloses, ?_⟩
    rw [← List.length_cons (a := a), List.take_left]
    exact hw
  -- A position is that of one of the two brackets, or it is between them.
  refine List.countP_eq_zero.2 fun i hi => ?_
  have hlt : i < (a :: w).length + 1 := by
    rw [← List.length_singleton (a := b), ← List.length_append]
    exact List.mem_range.1 hi
  rw [List.length_cons] at hlt
  simp only [decide_eq_true_eq]
  rintro ⟨hkind, houter⟩
  have hfirst : i ≠ 0 := by
    rintro rfl
    rw [hopens] at hkind
    cases hkind
  have hlast : i ≠ w.length + 1 := by
    rintro rfl
    rw [hcloses] at hkind
    cases hkind
  exact houter ⟨0, by omega, w.length + 1, by simp, by omega, hpair⟩

/-- Some symbol of a word opens a branch and has only closed branches behind it, unless no end of
the word opens more branches than it closes. -/
theorem exists_open_or_depth_suffix_le (w : Word) :
    (∃ u a inner, w = u ++ a :: inner ∧ table.command a = .push ∧ table.Balanced inner) ∨
      ∀ q, q <:+ w → table.depth q ≤ 0 := by
  -- By induction on the word, from its end: every end of the rest is an end of the whole.
  induction w with
  | nil =>
    refine Or.inr fun q hq => ?_
    rw [List.suffix_nil.1 hq, depth_nil]
  | cons c w ih =>
    rcases ih with ⟨u, a, inner, rfl, ha, hinner⟩ | hsuffix
    · exact Or.inl ⟨c :: u, a, inner, rfl, ha, hinner⟩
    by_cases hdepth : table.depth (c :: w) ≤ 0
    · refine Or.inr fun q hq => ?_
      rcases List.suffix_cons_iff.1 hq with rfl | hq
      · exact hdepth
      · exact hsuffix q hq
    · -- The symbol raises the depth and all that follows leaves it there.
      have hw := hsuffix w (List.suffix_refl w)
      rw [depth_cons] at hdepth
      have hc : table.command c = .push := Command.eq_push_of_rise_pos (by omega)
      rw [hc, Command.rise] at hdepth
      refine Or.inl ⟨[], c, w, rfl, hc, ?_, by omega⟩
      rintro p ⟨q, rfl⟩
      have hq := hsuffix q (List.suffix_append p q)
      rw [depth_append] at hdepth
      omega

/-- If branches are open at the end of a word, then behind the last symbol that opened one of them
there are only closed branches. -/
theorem exists_open_of_depth_pos {w : Word} (h : 0 < table.depth w) :
    ∃ u a inner, w = u ++ a :: inner ∧ table.command a = .push ∧ table.Balanced inner := by
  rcases table.exists_open_or_depth_suffix_le w with hopen | hsuffix
  · exact hopen
  · exact absurd (hsuffix w (List.suffix_refl w)) (Int.not_le.2 h)

end SymbolTable

namespace Machine

variable {α : Type} [Scalar α] {table : SymbolTable α} {s : Settings α}

/-! ## Colours are in the palette -/

/-- All colours are entries of the palette: those of the turtle and of the saved turtles, and those
announced so far. -/
structure InPalette (s : Settings α) (m : Machine α) (ps : List (Primitive α)) : Prop where
  turtle : m.turtle.color < s.palette
  saved : ∀ t ∈ m.saved, t.color < s.palette
  announced : ∀ color, .setColor color ∈ ps → color < s.palette

/-- A return announces no colour but the one that it restores. -/
theorem color_of_mem_restoring {current saved : Turtle α} {color : ColorIndex}
    (h : .setColor color ∈ restoring s current saved) : color = saved.color := by
  obtain ⟨scale, mark, heq, hscale, hmark⟩ := exists_restoring_eq s current saved
  rw [heq, List.mem_cons, List.mem_append] at h
  rcases h with hmove | hin | hin
  · cases hmove
  · rcases hscale with rfl | rfl
    · cases hin
    · simp [scaleMark] at hin
  · rcases hmark with rfl | rfl
    · cases hin
    · simpa using hin

/-- A command keeps all colours in the palette. -/
theorem InPalette.of_effect {m m' : Machine α} {cmd : Command α} {before ps : List (Primitive α)}
    (hpalette : 0 < s.palette) (h : InPalette s m before) (heffect : Effect s m cmd m' ps) :
    InPalette s m' (before ++ ps) := by
  have hannounced : (∀ color, .setColor color ∈ ps → color < s.palette) →
      ∀ color, .setColor color ∈ before ++ ps → color < s.palette := by
    intro hps color hcolor
    rcases List.mem_append.1 hcolor with hcolor | hcolor
    · exact h.announced color hcolor
    · exact hps color hcolor
  cases heffect with
  | drawn | moved | returned | turned | rescaled =>
    exact ⟨h.turtle, h.saved, hannounced fun color hcolor => by simp at hcolor⟩
  | recolored =>
    have hnext := UInt64.mod_lt (m.turtle.color + 1) hpalette
    refine ⟨hnext, h.saved, hannounced fun color hcolor => ?_⟩
    obtain rfl : color = (m.turtle.color + 1) % s.palette := by simpa using hcolor
    exact hnext
  | pushed =>
    refine ⟨h.turtle, fun t ht => ?_, hannounced fun color hcolor => by simp at hcolor⟩
    rcases Array.mem_push.1 ht with ht | rfl
    · exact h.saved t ht
    · exact h.turtle
  | popped hback =>
    have htop := h.saved _ (Array.mem_of_back? hback)
    refine ⟨htop, fun t ht => h.saved t ?_, hannounced fun color hcolor => ?_⟩
    · rw [Array.mem_def, Array.toList_pop] at ht
      exact Array.mem_def.2 (List.mem_of_mem_dropLast ht)
    · rw [color_of_mem_restoring hcolor]
      exact htop

/-- A run keeps all colours in the palette. -/
theorem InPalette.of_run {m m' : Machine α} {w : Word} {before ps : List (Primitive α)}
    (hpalette : 0 < s.palette) (h : InPalette s m before)
    (hrun : m.run table s w = .ok (m', ps)) : InPalette s m' (before ++ ps) :=
  run_preserves (P := InPalette s) (fun h heffect => h.of_effect hpalette heffect) h hrun

/-! ## The colour counts the changes -/

/-- Only a change of colour and a return have an effect on the colour. -/
theorem Effect.color_cases {m m' : Machine α} {cmd : Command α} {ps : List (Primitive α)}
    (h : Effect s m cmd m' ps) :
    (cmd = .colorToggle ∧ m'.turtle.color = (m.turtle.color + 1) % s.palette) ∨ cmd = .pop ∨
      (cmd ≠ .colorToggle ∧ cmd ≠ .pop ∧ m'.turtle.color = m.turtle.color) := by
  cases h with
  | recolored => exact Or.inl ⟨rfl, rfl⟩
  | popped => exact Or.inr (Or.inl rfl)
  | drawn hcmd | turned hcmd | rescaled hcmd =>
    refine Or.inr (Or.inr ⟨?_, ?_, rfl⟩)
    · rintro rfl
      cases hcmd
    · rintro rfl
      cases hcmd
  | moved | returned | pushed => exact Or.inr (Or.inr ⟨nofun, nofun, rfl⟩)

/-- A colour of the palette has a successor. -/
theorem toNat_color_add_one {color palette : ColorIndex} (h : color < palette) :
    (color + 1).toNat = color.toNat + 1 := by
  have hbound : color.toNat < palette.toNat := h
  have hpalette := palette.toNat_lt
  rw [UInt64.toNat_add, UInt64.toNat_one]
  exact Nat.mod_eq_of_lt (by omega)

/-- A return behind a word that was run from an empty stack closes the branch that was opened last,
and the machine is again the one before that branch. -/
theorem exists_run_of_return {m m' : Machine α} {w : Word} {b : Symbol} {ps : List (Primitive α)}
    (hb : table.command b = .pop) (hsaved : m.saved = #[])
    (h : m.run table s (w ++ [b]) = .ok (m', ps)) :
    ∃ u a inner qs, w = u ++ a :: inner ∧ table.command a = .push ∧ table.Balanced inner ∧
      m.run table s u = .ok (m', qs) := by
  have hdeep : 0 < table.depth w := by
    have hsize := size_of_run h
    have hrise : (table.command b).rise = -1 := by
      rw [hb]
      rfl
    rw [hsaved, Array.size_empty, SymbolTable.depth_append, SymbolTable.depth_cons,
      SymbolTable.depth_nil, hrise] at hsize
    omega
  obtain ⟨u, a, inner, rfl, ha, hinner⟩ := SymbolTable.exists_open_of_depth_pos hdeep
  rw [List.append_assoc] at h
  obtain ⟨m₁, qs, rs, hu, hbranch, -⟩ := run_append_eq_ok_iff.1 h
  obtain ⟨rfl, -⟩ := run_branch ha hb hinner hbranch
  exact ⟨u, a, inner, qs, rfl, ha, hinner, hu⟩

/-- A run that starts with an empty stack in the first colour ends in the colour that its word
counts. -/
theorem color_of_run {m m' : Machine α} {w : Word} {ps : List (Primitive α)}
    (hpalette : 0 < s.palette) (hcolor : m.turtle.color = 0) (hsaved : m.saved = #[])
    (h : m.run table s w = .ok (m', ps)) :
    m'.turtle.color.toNat = table.openToggles w % s.palette.toNat := by
  -- A return leads back to a beginning of the word that may be much shorter.
  induction hn : w.length using Nat.strong_induction_on generalizing w m' ps with
  | h n ih =>
    subst hn
    rcases w.eq_nil_or_concat' with rfl | ⟨u, c, rfl⟩
    · obtain ⟨rfl, -⟩ := run_nil_eq_ok_iff.1 h
      rw [hcolor]
      rfl
    obtain ⟨m₁, qs, rs, hu, hlast, -⟩ := run_append_eq_ok_iff.1 h
    obtain ⟨m₂, marks, none, hstep, hnil, -⟩ := run_cons_eq_ok_iff.1 hlast
    obtain ⟨rfl, -⟩ := run_nil_eq_ok_iff.1 hnil
    have hbefore : m₁.turtle.color.toNat = table.openToggles u % s.palette.toNat :=
      ih u.length (by simp) hu rfl
    rcases (effect_of_step hstep).color_cases with ⟨hc, hnext⟩ | hc | ⟨hne, hpop, hsame⟩
    · have hpop : table.command c ≠ .pop := by
        rw [hc]
        nofun
      have hlt : m₁.turtle.color < s.palette := by
        rw [UInt64.lt_iff_toNat_lt, hbefore]
        exact Nat.mod_lt _ hpalette
      -- A change of colour adds one, before and after the remainder is taken.
      rw [hnext, UInt64.toNat_mod, toNat_color_add_one hlt, hbefore, Nat.mod_add_mod,
        SymbolTable.openToggles_append (SymbolTable.covers_singleton hpop),
        SymbolTable.openToggles_singleton, if_pos (Command.kind_eq_colorToggle.2 hc)]
    · obtain ⟨v, a, inner, _, rfl, ha, hinner, hv⟩ := exists_run_of_return hc hsaved h
      have hcovers : table.Covers 0 (a :: inner ++ [c]) :=
        (SymbolTable.balanced_branch ha hc hinner).covers (Int.le_refl 0)
      rw [ih v.length (by simp) hv rfl, List.append_assoc, SymbolTable.openToggles_append hcovers,
        SymbolTable.openToggles_branch ha hc hinner, Nat.add_zero]
    · have hkind : (table.command c).kind ≠ .colorToggle := fun h =>
        hne (Command.kind_eq_colorToggle.1 h)
      rw [hsame, hbefore, SymbolTable.openToggles_append (SymbolTable.covers_singleton hpop),
        SymbolTable.openToggles_singleton, if_neg hkind, Nat.add_zero]

end Machine

variable {α : Type}

/-! ## The colours of polylines -/

/-- A polyline of two points has a segment, and its segments have its colour. -/
theorem Polyline.exists_mem_segments {run : Polyline α} (h : 2 ≤ run.points.length) :
    ∃ seg ∈ run.segments, seg.color = run.color := by
  obtain ⟨color, points⟩ := run
  match points, h with
  | a :: b :: _, _ => exact ⟨⟨color, a, b⟩, List.mem_cons_self, rfl⟩

variable [Scalar α]

/-- A plotter draws in the colour that it had or in one that was announced. -/
theorem Plotter.color_of_mem_segments {q : Plotter α} {ps : List (Primitive α)} :
    ∀ seg ∈ q.segments ps, seg.color = q.color ∨ .setColor seg.color ∈ ps := by
  induction ps generalizing q with
  | nil => exact fun seg hseg => absurd hseg List.not_mem_nil
  | cons p ps ih =>
    intro seg hseg
    cases p with
    | lineTo v =>
      rw [segments, List.mem_cons] at hseg
      rcases hseg with rfl | hseg
      · exact Or.inl rfl
      · exact (ih seg hseg).imp_right (List.mem_cons_of_mem _)
    | setColor color =>
      rcases ih seg hseg with hcolor | hmem
      · rw [show seg.color = color from hcolor]
        exact Or.inr List.mem_cons_self
      · exact Or.inr (List.mem_cons_of_mem _ hmem)
    | moveTo _ | setScale _ => exact (ih seg hseg).imp_right (List.mem_cons_of_mem _)

/-- A polyline has the colour 0 or one that the path announces. -/
theorem Drawing.color_of_mem_polylines {path : Drawing α} {run : Polyline α}
    (h : run ∈ path.polylines) : run.color = 0 ∨ .setColor run.color ∈ path.toList := by
  obtain ⟨seg, hseg, hcolor⟩ :=
    Polyline.exists_mem_segments (path.two_le_of_mem_polylines run h)
  have hmem : seg ∈ path.segments := by
    rw [← path.flatMap_polylines]
    exact List.mem_flatMap.2 ⟨run, h, hseg⟩
  rw [← hcolor]
  exact Plotter.color_of_mem_segments seg hmem

/-! ## Walks -/

/-- The palette has as many entries as the options say, but at least one. -/
theorem Settings.toNat_palette_of (options : DrawingOptions α) (motion : TurtleMotion α) :
    (Settings.of options motion).palette.toNat = max 1 options.colorCount.toNat :=
  UInt64.toNat_max 1 options.colorCount

/-- No palette is empty. -/
theorem Settings.palette_of_pos (options : DrawingOptions α) (motion : TurtleMotion α) :
    0 < (Settings.of options motion).palette := by
  rw [UInt64.lt_iff_toNat_lt, toNat_palette_of]
  exact Nat.lt_of_lt_of_le Nat.one_pos (Nat.le_max_left 1 _)

/-- After a walk all colours are in the palette. -/
theorem Machine.InPalette.of_walk {interpreter : Interpreter α} {motion : TurtleMotion α} {w : Word}
    {walk : Walk α} (h : interpreter.walk w motion = .ok walk) :
    InPalette (interpreter.settings motion) walk.machine walk.path.toList := by
  obtain ⟨ps, hrun, hpath⟩ := Interpreter.walk_eq_ok_iff.1 h
  have hpalette := Settings.palette_of_pos interpreter.options motion
  have hstart : InPalette (interpreter.settings motion)
      (Machine.start interpreter.options motion) [.moveTo Vec3.origin] :=
    ⟨hpalette, fun t ht => absurd ht (Array.not_mem_empty t), fun color hcolor => by simp at hcolor⟩
  rw [hpath]
  exact hstart.of_run hpalette hrun

/-- The colour of the turtle and of every saved turtle is an entry of the palette, which has at
least one, so the next colour can be computed without overflow; and the colour of the turtle is the
number of changes of colour that are not inside a closed branch, counted around the palette. The
word may be any beginning of a longer one, at whose later symbols the walk may fail. The path of an
answer announces only colours of the palette, and its polylines have only these. -/
theorem interpret_colors (interpreter : Interpreter α) (motion : TurtleMotion α) (w : Word) :
    (∀ walk, interpreter.walk w motion = .ok walk →
      walk.machine.turtle.color.toNat < max 1 interpreter.options.colorCount.toNat ∧
      (walk.machine.turtle.color + 1).toNat = walk.machine.turtle.color.toNat + 1 ∧
      (∀ t ∈ walk.machine.saved,
        t.color.toNat < max 1 interpreter.options.colorCount.toNat) ∧
      walk.machine.turtle.color.toNat =
        interpreter.table.openToggles w % max 1 interpreter.options.colorCount.toNat) ∧
    ∀ path, drawnPath? (interpreter.interpret w motion) = some path →
      (∀ color, .setColor color ∈ path.toList →
        color.toNat < max 1 interpreter.options.colorCount.toNat) ∧
      ∀ run ∈ path.polylines, run.color.toNat < max 1 interpreter.options.colorCount.toNat := by
  rw [← Settings.toNat_palette_of interpreter.options motion]
  have hpalette := Settings.palette_of_pos interpreter.options motion
  constructor
  · intro walk h
    have hin := Machine.InPalette.of_walk h
    obtain ⟨ps, hrun, -⟩ := Interpreter.walk_eq_ok_iff.1 h
    exact ⟨hin.turtle, Machine.toNat_color_add_one hin.turtle, hin.saved,
      Machine.color_of_run hpalette rfl rfl hrun⟩
  · intro path h
    obtain ⟨n, walk, hwalk, rfl⟩ := Interpreter.exists_walk_of_drawnPath h
    have hin := Machine.InPalette.of_walk hwalk
    refine ⟨hin.announced, fun run hrun => ?_⟩
    rcases Drawing.color_of_mem_polylines hrun with hzero | hannounced
    · rw [hzero]
      exact hpalette
    · exact hin.announced run.color hannounced

/-- Two of four changes are inside a closed branch and one is in a branch that is still open; and a
longer word that fails at a return without a branch. -/
theorem interpret_colors_nested :
    (∃ walk : Walk Float,
      (Interpreter.ofOptions DrawingOptions.standard).walk ".F[.[.F]F]F[.F".toList ⟨90, 0, 0.5⟩ =
          .ok walk ∧
        walk.machine.turtle.color.toNat = 2) ∧
    ∃ path : Drawing Float,
      drawnPath? ((Interpreter.ofOptions DrawingOptions.standard).interpret
          ".F[.[.F]F]F[.F]]F".toList ⟨90, 0, 0.5⟩) = some path ∧
        ∀ run ∈ path.polylines, run.color.toNat < 3 := by
  constructor
  · obtain ⟨walk, h⟩ : ∃ walk : Walk Float,
        (Interpreter.ofOptions DrawingOptions.standard).walk ".F[.[.F]F]F[.F".toList ⟨90, 0, 0.5⟩ =
          .ok walk := ⟨_, rfl⟩
    obtain ⟨-, -, -, hcolor⟩ := (interpret_colors _ _ _).1 walk h
    refine ⟨walk, h, hcolor.trans ?_⟩
    decide +kernel
  · obtain ⟨path, h⟩ : ∃ path : Drawing Float,
        drawnPath? ((Interpreter.ofOptions DrawingOptions.standard).interpret
          ".F[.[.F]F]F[.F]]F".toList ⟨90, 0, 0.5⟩) = some path := ⟨_, rfl⟩
    exact ⟨path, h, ((interpret_colors _ _ _).2 path h).2⟩

end TurtleCurves
