import TurtleCurves.Proofs.Branch
import TurtleCurves.Proofs.Rendering

/-!
# What a drawing can cost

A symbol can emit three primitives, but only a return does, and a return takes back a turtle that an
earlier symbol saved and emitted nothing. If every symbol pays for two primitives, what it does not
spend on its own stays with the turtles on the stack: the primitives and the saved turtles together
grow by at most two at every step (`Effect.length_add_size_le`). So a path is at most twice as long
as what was walked, whether the walk gets to its end or not, and the ceiling on the symbols of a
generation is a ceiling on paths.
-/

namespace TurtleCurves

variable {α : Type}

/-- The size of a path is the length of its list. -/
theorem Drawing.length_toList (path : Drawing α) : path.toList.length = path.size :=
  Array.length_toList

/-- The path that an answer comes with: the whole path, or what was drawn before a return without a
branch. -/
def drawnPath? : Except (CurveError α) (Drawing α) → Option (Drawing α)
  | .ok path => some path
  | .error (.unbalancedBranch _ drawn) => some drawn
  | .error _ => none

/-! ## Two primitives for each symbol -/

section Scalar

variable [Scalar α]

namespace Machine

variable {table : SymbolTable α} {s : Settings α}

/-- A return emits at most three primitives. -/
theorem length_restoring_le (s : Settings α) (current saved : Turtle α) :
    (restoring s current saved).length ≤ 3 := by
  obtain ⟨scale, color, heq, hscale, hcolor⟩ := exists_restoring_eq s current saved
  rw [heq, List.length_cons, List.length_append]
  rcases hscale with rfl | rfl <;> rcases hcolor with rfl | rfl <;> simp

/-- The primitives of a step and the saved turtles together are at most two more than the turtles
that were saved before. -/
theorem Effect.length_add_size_le {m m' : Machine α} {cmd : Command α} {ps : List (Primitive α)}
    (h : Effect s m cmd m' ps) : ps.length + m'.saved.size ≤ m.saved.size + 2 := by
  cases h with
  | drawn | moved | returned | turned | rescaled | recolored =>
    simp only [List.length_cons, List.length_nil]
    omega
  | pushed =>
    rw [List.length_nil, Array.size_push]
    omega
  | @popped t hback =>
    -- The turtle that is taken from the stack pays for the third primitive.
    have hmarks := length_restoring_le s m.turtle t
    have hpos : 0 < m.saved.size := by
      refine Nat.pos_of_ne_zero fun hzero => ?_
      rw [Array.size_eq_zero_iff.1 hzero] at hback
      cases hback
    rw [Array.size_pop]
    omega

/-- The primitives of a run and the saved turtles together grow by at most two for each symbol. -/
theorem length_add_size_of_run_le {m m' : Machine α} {w : Word} {ps : List (Primitive α)}
    (h : m.run table s w = .ok (m', ps)) :
    ps.length + m'.saved.size ≤ m.saved.size + 2 * w.length := by
  induction w generalizing m ps with
  | nil =>
    obtain ⟨rfl, rfl⟩ := run_nil_eq_ok_iff.1 h
    rw [List.length_nil]
    omega
  | cons c w ih =>
    obtain ⟨m₁, ps, qs, hc, hw, rfl⟩ := run_cons_eq_ok_iff.1 h
    -- What the first symbol leaves of its two primitives is on the stack when the rest begins.
    have hstep := (effect_of_step hc).length_add_size_le
    have hrest := ih hw
    rw [List.length_append, List.length_cons]
    omega

end Machine

namespace Interpreter

variable {interpreter : Interpreter α} {motion : TurtleMotion α} {w : Word}

/-- A path has at most two primitives for each symbol, beside the move with which it begins. -/
theorem size_path_of_walk_le {walk : Walk α} (h : interpreter.walk w motion = .ok walk) :
    walk.path.size ≤ 1 + 2 * w.length := by
  obtain ⟨ps, hrun, hpath⟩ := walk_eq_ok_iff.1 h
  have hle := Machine.length_add_size_of_run_le hrun
  have hstart : (Machine.start interpreter.options motion).saved.size = 0 := rfl
  rw [← walk.path.length_toList, hpath, List.length_cons]
  omega

/-- The path of a word has at most two primitives for each symbol, beside the first move. -/
theorem size_of_interpret_le {path : Drawing α} (h : interpreter.interpret w motion = .ok path) :
    path.size ≤ 1 + 2 * w.length := by
  obtain ⟨machine, hwalk⟩ := interpret_eq_ok_iff.1 h
  exact size_path_of_walk_le hwalk

/-- A return without a branch is reported after a walk along all that stands before it. -/
theorem exists_walk_of_unbalancedBranch {i : Nat} {drawn : Drawing α}
    (h : interpreter.interpret w motion = .error (.unbalancedBranch i drawn)) :
    i < w.length ∧ ∃ walk, interpreter.walk (w.take i) motion = .ok walk ∧ walk.path = drawn := by
  obtain ⟨u, c, v, last, rfl, hu, hoff, he⟩ := interpret_eq_error_iff.1 h
  -- Of the symbols that can be refused only a return is refused with this error.
  have hsame : i = u.length ∧ drawn = last.path := by
    cases hc : interpreter.table.command c with
    | pop =>
      rw [hc] at he
      cases he
      exact ⟨rfl, rfl⟩
    | _ =>
      rw [hc] at he
      cases he
  obtain ⟨rfl, rfl⟩ := hsame
  refine ⟨by simp, last, ?_, rfl⟩
  rw [List.take_left]
  exact hu

/-- The path that an answer comes with was drawn by a walk along a beginning of the word. -/
theorem exists_walk_of_drawnPath {path : Drawing α}
    (h : drawnPath? (interpreter.interpret w motion) = some path) :
    ∃ n walk, interpreter.walk (w.take n) motion = .ok walk ∧ walk.path = path := by
  cases hanswer : interpreter.interpret w motion with
  | ok whole =>
    rw [hanswer] at h
    cases h
    obtain ⟨machine, hwalk⟩ := interpret_eq_ok_iff.1 hanswer
    refine ⟨w.length, ⟨machine, path⟩, ?_, rfl⟩
    rw [List.take_length]
    exact hwalk
  | error e =>
    rw [hanswer] at h
    cases e with
    | unbalancedBranch i drawn =>
      cases h
      obtain ⟨-, walk, hwalk, hpath⟩ := exists_walk_of_unbalancedBranch hanswer
      exact ⟨i, walk, hwalk, hpath⟩
    | invalidGrammar _ | limitExceeded _ | unknownGrammar _ | badCatalog _ => cases h

/-- The path that an answer comes with is within the bound of the whole word. -/
theorem size_of_drawnPath_le {path : Drawing α}
    (h : drawnPath? (interpreter.interpret w motion) = some path) :
    path.size ≤ 1 + 2 * w.length := by
  obtain ⟨n, walk, hwalk, rfl⟩ := exists_walk_of_drawnPath h
  have hle := size_path_of_walk_le hwalk
  have htake := List.length_take_le' n w
  omega

end Interpreter

end Scalar

/-! ## Records -/

/-- Rendering a record is validating it and rendering the grammar. -/
theorem GrammarRecord.render_outcome (record : GrammarRecord) (options : DrawingOptions Float) :
    (record.render options).outcome =
      (record.validate.outcome.mapError .invalidGrammar).bind fun g =>
        (g.render options).outcome :=
  Logged.outcome_bind _ _

/-- A record that is drawn under a ceiling on symbols, to the end or up to a return without a
branch, has no generation above the ceiling, and its path has at most two primitives for each symbol
that the ceiling allows, beside the first move; on the way no more turtles are saved than the
options allow. The bounds come from the walk itself: whatever the symbols mean and wherever the walk
ends, a path has at most two primitives for each symbol that was passed, beside the first move. -/
theorem render_bounded (record : GrammarRecord) (options : DrawingOptions Float) :
    (∀ m, options.maxSymbols = some m → ∀ path,
      drawnPath? (record.render options).outcome = some path →
      ∃ g, record.validate.outcome = .ok g ∧
        (∀ k ≤ g.iterationCount, (g.generation k).length ≤ m.toNat) ∧
        path.size ≤ 1 + 2 * m.toNat ∧
        ∀ u walk, u <+: g.generation g.iterationCount →
          (Interpreter.ofOptions options).walk u g.motion = .ok walk →
          walk.machine.saved.size ≤ options.maxStackDepth.toNat) ∧
    ∀ {α : Type} [Scalar α] (interpreter : Interpreter α) (motion : TurtleMotion α) (w : Word),
      (∀ path, interpreter.interpret w motion = .ok path → path.size ≤ 1 + 2 * w.length) ∧
      (∀ i drawn, interpreter.interpret w motion = .error (.unbalancedBranch i drawn) →
        i < w.length ∧ (∃ walk, interpreter.walk (w.take i) motion = .ok walk) ∧
          drawn.size ≤ 1 + 2 * i) ∧
      ∀ walk, interpreter.walk w motion = .ok walk →
        walk.path.size ≤ 1 + 2 * w.length ∧
          walk.machine.saved.size ≤ interpreter.options.maxStackDepth.toNat := by
  constructor
  · intro m hm path hpath
    rw [record.render_outcome] at hpath
    cases hvalidate : record.validate.outcome with
    | error fault =>
      rw [hvalidate] at hpath
      cases hpath
    | ok g =>
      rw [hvalidate] at hpath
      change drawnPath? (g.render options).outcome = some path at hpath
      rw [g.render_outcome] at hpath
      cases hproj : g.projectedLength options.ceiling with
      | error excess =>
        rw [hproj] at hpath
        cases hpath
      | ok length =>
        rw [hproj] at hpath
        have hfits := Grammar.fits_of_projectedLength hproj
        have hlast : (g.generation g.iterationCount).length ≤ m.toNat := hfits _ le_rfl m hm
        have hsize : path.size ≤ 1 + 2 * (g.generation g.iterationCount).length :=
          Interpreter.size_of_drawnPath_le hpath
        refine ⟨g, rfl, fun k hk => hfits k hk m hm, by omega, fun u walk _ hwalk => ?_⟩
        exact Interpreter.size_of_walk_le hwalk
  · intro α _ interpreter motion w
    refine ⟨fun path => Interpreter.size_of_interpret_le, fun i drawn h => ?_, fun walk h => ?_⟩
    · obtain ⟨hi, walk, hwalk, rfl⟩ := Interpreter.exists_walk_of_unbalancedBranch h
      refine ⟨hi, ⟨walk, hwalk⟩, ?_⟩
      have hle := Interpreter.size_path_of_walk_le hwalk
      rwa [List.length_take, Nat.min_eq_left hi.le] at hle
    · exact ⟨Interpreter.size_path_of_walk_le h, Interpreter.size_of_walk_le h⟩

/-- Two round trips and a branch before a return without a branch, under a ceiling of as many
symbols as the word has. -/
theorem render_bounded_return :
    ∃ drawn,
      (({ start := "||[.F]]F", rotationAngle := 90, iterations := 0 } : GrammarRecord).render
        { DrawingOptions.standard with maxSymbols := some 8, alphabet := .classic }).outcome =
          .error (.unbalancedBranch 6 drawn) ∧
      drawn.size ≤ 17 := by
  obtain ⟨drawn, h⟩ : ∃ drawn,
      (({ start := "||[.F]]F", rotationAngle := 90, iterations := 0 } : GrammarRecord).render
        { DrawingOptions.standard with maxSymbols := some 8, alphabet := .classic }).outcome =
          .error (.unbalancedBranch 6 drawn) := ⟨_, rfl⟩
  obtain ⟨g, -, -, hsize, -⟩ := (render_bounded _ _).1 8 rfl drawn (by rw [h]; rfl)
  exact ⟨drawn, h, hsize⟩

end TurtleCurves
