import TurtleCurves.Proofs.Rendering

/-!
# Ceilings are filters

The options of a drawing have two ceilings, one on the symbols of a generation and one on the
turtles that are saved at once. Each of them can refuse a drawing and do nothing else: options with
higher ceilings (`DrawingOptions.Widens`) give the answer of the lower ones wherever those do not
refuse, be it a path or another error.

## Shape of the proof

Two answers are compared by `Filters`: the first is a refusal or the second is the same. A single
step of the machine filters in this sense, since only saving a turtle looks at the ceiling.
`Filters.bind` carries that along a word, where the two walks stay together until the lower ceiling
refuses. The projection of the generations passes the higher ceiling wherever it passes the lower
one, and then nothing is left that knows of the ceiling.
-/

namespace TurtleCurves

variable {α β γ : Type}

/-- The options differ in their ceilings alone, and no ceiling of `wide` is below that of `narrow`.
-/
structure DrawingOptions.Widens (narrow wide : DrawingOptions α) : Prop where
  maxSymbols : ∀ l' ∈ wide.maxSymbols, ∃ l ∈ narrow.maxSymbols, l ≤ l'
  maxStackDepth : narrow.maxStackDepth ≤ wide.maxStackDepth
  rest : wide =
    { narrow with maxSymbols := wide.maxSymbols, maxStackDepth := wide.maxStackDepth }

/-- The first answer is refused for a ceiling, or the second is the same. -/
def Filters (narrow wide : Except (CurveError α) β) : Prop :=
  (∃ excess, narrow = .error (.limitExceeded excess)) ∨ wide = narrow

/-- An answer filters itself. -/
theorem Filters.refl (x : Except (CurveError α) β) : Filters x x :=
  Or.inr rfl

/-- What goes on from answers that filter filters if it does so after each value. -/
theorem Filters.bind {x x' : Except (CurveError α) β} {f f' : β → Except (CurveError α) γ}
    (hx : Filters x x') (hf : ∀ b, Filters (f b) (f' b)) : Filters (x.bind f) (x'.bind f') := by
  rcases hx with ⟨excess, rfl⟩ | rfl
  · exact Or.inl ⟨excess, rfl⟩
  · -- Both go on from the same value, or both have failed alike.
    cases x' with
    | error e => exact Or.inr rfl
    | ok b => exact hf b

/-! ## The ceiling on symbols -/

/-- A ceiling on symbols that is left was there before, and no higher. -/
theorem DrawingOptions.Widens.ceiling_le {narrow wide : DrawingOptions α} (h : narrow.Widens wide) :
    ∀ l' ∈ wide.ceiling, ∃ l ∈ narrow.ceiling, l ≤ l' := by
  rintro _ hl'
  obtain ⟨l', hwide, rfl⟩ := Option.mem_map.1 hl'
  obtain ⟨l, hnarrow, hle⟩ := h.maxSymbols l' hwide
  exact ⟨l.toNat, Option.mem_map.2 ⟨l, hnarrow, rfl⟩, UInt64.le_iff_toNat_le.1 hle⟩

/-- A count that passes a ceiling passes every ceiling that is not lower. -/
theorem checkSymbols_eq_ok_of_le {low high : Option Nat} (h : ∀ l' ∈ high, ∃ l ∈ low, l ≤ l')
    {count n : Nat} (hok : checkSymbols low count = .ok n) : checkSymbols high count = .ok n := by
  cases high with
  | none =>
    cases low with
    | none => exact hok
    | some l =>
      rw [checkSymbols] at hok
      split at hok
      · cases hok
      · exact hok
  | some l' =>
    obtain ⟨l, rfl, hle⟩ := h l' rfl
    rw [checkSymbols] at hok ⊢
    split at hok
    · cases hok
    · next hcount => rw [if_neg (by omega), hok]

namespace Grammar

/-- Where the projection passes a ceiling it passes every ceiling that is not lower. -/
theorem projectFrom_eq_ok_of_le (g : Grammar) {low high : Option Nat}
    (h : ∀ l' ∈ high, ∃ l ∈ low, l ≤ l') {n length : Nat} {tally : Tally}
    (hok : g.projectFrom low n tally = .ok length) : g.projectFrom high n tally = .ok length := by
  induction n generalizing tally with
  | zero => exact checkSymbols_eq_ok_of_le h hok
  | succ n ih =>
    rw [projectFrom] at hok ⊢
    cases hcheck : checkSymbols low tally.total with
    | error e =>
      rw [hcheck] at hok
      cases hok
    | ok m =>
      rw [hcheck] at hok
      rw [checkSymbols_eq_ok_of_le h hcheck]
      -- Whether the projection stops here depends on the counts alone.
      by_cases hfix : g.nextTally tally = tally
      · simp only [hfix, if_true] at hok ⊢
        exact hok
      · simp only [hfix, if_false] at hok ⊢
        exact ih hok

/-- Where the projection passes, the expansion builds and reports the same under a higher ceiling.
-/
theorem expand_eq_of_le (g : Grammar) {low high : Option Nat} (h : ∀ l' ∈ high, ∃ l ∈ low, l ≤ l')
    {length : Nat} (hok : g.projectedLength low = .ok length) : g.expand high = g.expand low := by
  have hhigh : g.projectedLength high = .ok length := g.projectFrom_eq_ok_of_le h hok
  rw [expand, expand, hok, hhigh]

end Grammar

/-! ## The ceiling on saved turtles -/

section Scalar

variable [Scalar α]

/-- Only a turtle that is to be saved can find the stack full. -/
theorem Machine.step_of_le {s : Settings α} {depth : Nat} (h : s.maxStackDepth ≤ depth)
    (m : Machine α) (cmd : Command α) :
    (∃ n, m.step s cmd = .error (.fullStack n)) ∨
      m.step { s with maxStackDepth := depth } cmd = m.step s cmd := by
  cases cmd with
  | push =>
    rw [step, step]
    by_cases hfull : s.maxStackDepth ≤ m.saved.size
    · rw [if_pos hfull]
      exact Or.inl ⟨_, rfl⟩
    · by_cases hfull' : depth ≤ m.saved.size
      · exact absurd (h.trans hfull') hfull
      · rw [if_neg hfull, if_neg hfull']
        exact Or.inr rfl
  | _ => exact Or.inr rfl

namespace Walk

variable {table : SymbolTable α} {s : Settings α} {depth : Nat}

/-- A single symbol is refused under the lower ceiling or passed under both alike. -/
theorem filters_step (h : s.maxStackDepth ≤ depth) (index : Nat) (walk : Walk α) (c : Symbol) :
    Filters (walk.step table s index c)
      (walk.step table { s with maxStackDepth := depth } index c) := by
  rw [step, step]
  rcases Machine.step_of_le h walk.machine (table.command c) with ⟨n, hfull⟩ | hsame
  · rw [hfull]
    exact Or.inl ⟨_, rfl⟩
  · rw [hsame]
    cases walk.machine.step s (table.command c) with
    | ok next => exact Filters.refl _
    | error fault =>
      cases fault with
      | fullStack n => exact Or.inl ⟨_, rfl⟩
      | emptyStack | zeroCoefficient => exact Filters.refl _

/-- A walk is refused under the lower ceiling or goes the same way under both. -/
theorem filters_along (h : s.maxStackDepth ≤ depth) (index : Nat) (walk : Walk α) (w : Word) :
    Filters (along table s index walk w)
      (along table { s with maxStackDepth := depth } index walk w) := by
  -- By induction on the word, from any walk: up to here both walks are the same.
  induction w generalizing index walk with
  | nil => exact Filters.refl _
  | cons c w ih =>
    rw [along_cons, along_cons]
    exact (filters_step h index walk c).bind fun next => ih (index + 1) next

end Walk

namespace DrawingOptions.Widens

variable {narrow wide : DrawingOptions α} (h : narrow.Widens wide)

include h

/-- The constants of the two walks differ in the ceiling on saved turtles alone. -/
theorem settings_eq (motion : TurtleMotion α) :
    Settings.of wide motion =
      { Settings.of narrow motion with maxStackDepth := wide.maxStackDepth.toNat } := by
  rw [h.rest]
  rfl

/-- A word is refused under the lower ceiling or answered alike under both. -/
theorem filters_interpret (w : Word) (motion : TurtleMotion α) :
    Filters ((Interpreter.ofOptions narrow).interpret w motion)
      ((Interpreter.ofOptions wide).interpret w motion) := by
  have htable : (Interpreter.ofOptions wide).table = (Interpreter.ofOptions narrow).table := by
    rw [h.rest]
    rfl
  have hstart : Walk.start wide motion = Walk.start narrow motion := by
    rw [h.rest]
    rfl
  have hdepth : (Settings.of narrow motion).maxStackDepth ≤ wide.maxStackDepth.toNat :=
    UInt64.le_iff_toNat_le.1 h.maxStackDepth
  -- The table, the start and all constants but one are the same.
  have hwalk : Filters ((Interpreter.ofOptions narrow).walk w motion)
      ((Interpreter.ofOptions wide).walk w motion) := by
    show Filters _ (Walk.along (Interpreter.ofOptions wide).table (Settings.of wide motion) 0
      (Walk.start wide motion) w)
    rw [htable, hstart, h.settings_eq]
    exact Walk.filters_along hdepth 0 _ w
  rcases hwalk with ⟨excess, hrefused⟩ | hsame
  · refine Or.inl ⟨excess, ?_⟩
    rw [Interpreter.interpret, hrefused]
    rfl
  · refine Or.inr ?_
    rw [Interpreter.interpret, Interpreter.interpret, hsame]

end DrawingOptions.Widens

end Scalar

/-! ## Both ceilings -/

/-- Raising the ceilings of a drawing changes nothing unless one of them refuses it: the path or the
other error is the same, and so is what is reported on the way. -/
theorem render_widens (g : Grammar) {narrow wide : DrawingOptions Float} (h : narrow.Widens wide) :
    (∃ excess, (g.render narrow).outcome = .error (.limitExceeded excess)) ∨
      g.render wide = g.render narrow := by
  cases hproj : g.projectedLength narrow.ceiling with
  | error excess =>
    refine Or.inl ⟨excess, ?_⟩
    rw [g.render_outcome, hproj]
    rfl
  | ok length =>
    -- The lower ceiling was passed, so nothing that comes later knows of it.
    have hexpand : g.expand wide.ceiling = g.expand narrow.ceiling :=
      g.expand_eq_of_le h.ceiling_le hproj
    have hword : ((g.expand narrow.ceiling).mapError
        (CurveError.limitExceeded (α := Float))).outcome = .ok (g.generation g.iterationCount) := by
      show (g.expand narrow.ceiling).outcome.mapError _ = _
      rw [g.expand_outcome, hproj]
      rfl
    rcases h.filters_interpret (g.generation g.iterationCount) g.motion with
      ⟨excess, hrefused⟩ | hsame
    · refine Or.inl ⟨excess, ?_⟩
      rw [g.render_outcome, hproj]
      exact hrefused
    · refine Or.inr ?_
      rw [Grammar.render, Grammar.render, hexpand, Logged.bind_of_ok _ hword,
        Logged.bind_of_ok _ hword, hsame]

/-- Options that are just enough, and options without a ceiling on symbols: both meet the same
return without a branch. -/
theorem render_widens_return :
    let g : Grammar := ⟨"F".toList, RuleSet.empty.insert 'F' "F[F]]F".toList, 1, 1, ∅, ⟨90, 0, 1⟩⟩
    let narrow : DrawingOptions Float :=
      { DrawingOptions.standard with maxStackDepth := 1, maxSymbols := some 6 }
    let wide : DrawingOptions Float := { DrawingOptions.standard with maxSymbols := none }
    narrow.Widens wide ∧ g.render wide = g.render narrow ∧
      ∃ drawn, (g.render narrow).outcome = .error (.unbalancedBranch 4 drawn) := by
  intro g narrow wide
  have h : narrow.Widens wide := ⟨by simp [wide], by decide, rfl⟩
  have hproj : g.projectedLength narrow.ceiling = .ok 6 := by decide +kernel
  have hword : g.generation g.iterationCount = "F[F]]F".toList := by decide +kernel
  obtain ⟨drawn, hnarrow⟩ : ∃ drawn, (g.render narrow).outcome =
      .error (.unbalancedBranch 4 drawn) := by
    rw [g.render_outcome, hproj, hword]
    exact ⟨_, rfl⟩
  refine ⟨h, ?_, drawn, hnarrow⟩
  rcases render_widens g h with ⟨excess, hrefused⟩ | hsame
  · rw [hnarrow] at hrefused
    cases hrefused
  · exact hsame

end TurtleCurves
