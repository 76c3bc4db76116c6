import Mathlib.Order.Bounds.Basic
import TurtleCurves.Proofs.Expansion
import TurtleCurves.Render

/-!
# What is logged

Expanding a grammar announces how long the last generation will be, reports each generation that is
built, and says so if it stops before the last one. Rendering adds one line at the end, unless it
fails. Nothing else is ever logged on the way from a grammar to its drawing.

## Shape of the proof

The announced length comes from the projection, which never sees a word; `projectFrom_cases` says
that it is the length of the last generation all the same. The reports come from the loop that
builds the words. It is left at the first word without productions or after the last step, whichever
comes first (`Grammar.stops`), and one induction over the steps that are left gives both the place
where it is left and the records up to there (`expandFrom_records`).
-/

namespace TurtleCurves

namespace Grammar

/-- A word has no productions if none of its symbols has one. -/
theorem hasProduction_eq_false_iff {g : Grammar} {w : Word} :
    g.hasProduction w = false ↔ ∀ c ∈ w, g.production? c = none := by
  simp only [hasProduction, List.any_eq_false, Option.not_isSome_iff_eq_none]

/-! ## Where building stops -/

/-- The numbers of steps from `w`, up to `n`, after which there is nothing left to build: all steps
have been made, or the word has no productions. -/
def stops (g : Grammar) (n : Nat) (w : Word) : Set Nat :=
  {j | j ≤ n ∧ (j = n ∨ ∀ c ∈ g.iterate j w, g.production? c = none)}

/-- Without steps or without productions building stops at once. -/
theorem isLeast_stops_zero {g : Grammar} {n : Nat} {w : Word}
    (h : n = 0 ∨ g.hasProduction w = false) : IsLeast (g.stops n w) 0 := by
  refine ⟨⟨Nat.zero_le n, ?_⟩, fun j _ => Nat.zero_le j⟩
  exact h.imp Eq.symm hasProduction_eq_false_iff.1

/-- A word with productions is not where building stops, so it stops one step later than from the
next. -/
theorem isLeast_stops_succ {g : Grammar} {n j : Nat} {w : Word} (hw : g.hasProduction w = true)
    (h : IsLeast (g.stops n (g.step w)) j) : IsLeast (g.stops (n + 1) w) (j + 1) := by
  obtain ⟨⟨hle, hstop⟩, hleast⟩ := h
  refine ⟨⟨Nat.succ_le_succ hle, hstop.imp_left (congrArg (· + 1))⟩, fun i hi => ?_⟩
  obtain ⟨hin, hi⟩ := hi
  cases i with
  | zero =>
    -- The word at hand still has productions, so nothing stops there.
    rcases hi with hzero | hnone
    · cases hzero
    · have hfalse : g.hasProduction w = false := hasProduction_eq_false_iff.2 hnone
      rw [hfalse] at hw
      cases hw
  | succ i =>
    exact Nat.succ_le_succ (hleast ⟨Nat.le_of_succ_le_succ hin, hi.imp_left Nat.succ.inj⟩)

/-! ## Records of the words that are built -/

/-- The records of the first `j` words after `w`, which is generation `k`. -/
def built (g : Grammar) (k : Nat) (w : Word) (j : Nat) : List LogRecord :=
  (List.range j).map fun i => .generation (k + i + 1) (g.iterate (i + 1) w).utf8Length

/-- The first record is that of the next word, and the others follow from there. -/
theorem built_succ (g : Grammar) (k : Nat) (w : Word) (j : Nat) :
    g.built k w (j + 1) =
      .generation (k + 1) (g.step w).utf8Length :: g.built (k + 1) (g.step w) j := by
  rw [built, List.range_succ_eq_map, List.map_cons, List.map_map, built]
  refine congrArg₂ List.cons rfl (List.map_congr_left fun i _ => ?_)
  show LogRecord.generation (k + (i + 1) + 1) _ = _
  rw [Nat.add_right_comm k 1 i]
  rfl

/-- From the start word on, the records are those of the generations. -/
theorem built_zero (g : Grammar) (j : Nat) :
    g.built 0 g.initialWord j =
      (List.range j).map fun i => .generation (i + 1) (g.generation (i + 1)).utf8Length := by
  simp only [built, Nat.zero_add, generation]

/-- Building `n` words after generation `k`, the word `w`, reports the words up to the first place
where it may stop, and says that it stops if that is not the last. -/
theorem expandFrom_records (g : Grammar) (n k : Nat) (w : Word) (records : Array LogRecord) :
    ∃ j, IsLeast (g.stops n w) j ∧
      (g.expandFrom n k w records).2.toList =
        records.toList ++ (g.built k w j ++ if j < n then [.exhausted (k + j + 1)] else []) := by
  induction n generalizing k w records with
  | zero => exact ⟨0, isLeast_stops_zero (Or.inl rfl), (List.append_nil _).symm⟩
  | succ n ih =>
    rw [expandFrom]
    by_cases h : g.hasProduction w = true
    · obtain ⟨j, hj, hrecords⟩ := ih (k + 1) (g.step w)
        (records.push (.generation (k + 1) (g.stepBytes w)))
      refine ⟨j + 1, isLeast_stops_succ h hj, ?_⟩
      rw [if_pos h, hrecords, built_succ, stepBytes_eq, Array.toList_push, List.append_assoc,
        List.singleton_append, List.cons_append, Nat.add_right_comm k 1 j]
      simp only [Nat.add_lt_add_iff_right, Nat.add_assoc]
    · refine ⟨0, isLeast_stops_zero (Or.inr (Bool.eq_false_of_not_eq_true h)), ?_⟩
      rw [if_neg h, if_pos (Nat.succ_pos n), Array.toList_push]
      rfl

/-- Expansion either refuses a generation and logs nothing, or answers with the last generation and
logs its length, what it has built, and where it has stopped if that is early. -/
theorem expand_records (g : Grammar) (limit : Option UInt64) :
    (∃ e, g.expand (limit.map UInt64.toNat) = Logged.fail e) ∨
      ∃ j, IsLeast (g.stops g.iterationCount g.initialWord) j ∧
        g.expand (limit.map UInt64.toNat) =
          ⟨.ok (g.generation g.iterationCount),
            .projection g.iterationCount (capped (g.generation g.iterationCount).length) ::
              (((List.range j).map fun i =>
                  .generation (i + 1) (g.generation (i + 1)).utf8Length) ++
                if j < g.iterationCount then [.exhausted (j + 1)] else [])⟩ := by
  -- Nothing is built before the projection has passed.
  rcases g.projectFrom_cases limit (n := g.iterationCount) g.counts_initialTally with
    ⟨-, hproj⟩ | ⟨l, -, j, -, hproj⟩
  · obtain ⟨j, hj, hrecords⟩ := g.expandFrom_records g.iterationCount 0 g.initialWord #[]
    refine Or.inr ⟨j, hj, ?_⟩
    rw [List.nil_append, Nat.zero_add, built_zero] at hrecords
    rw [expand, projectedLength, hproj]
    show (⟨_, _ :: (g.expandFrom g.iterationCount 0 g.initialWord #[]).2.toList⟩ :
      Logged LimitExceeded Word) = _
    rw [hrecords, expandFrom_word]
    rfl
  · exact Or.inl ⟨_, by rw [expand, projectedLength, hproj]⟩

/-- Rendering logs what expanding does, and one more record if there is a path. -/
theorem render_records (g : Grammar) (options : DrawingOptions Float) :
    (∃ path, g.render options =
        ⟨.ok path, (g.expand options.ceiling).records ++
          [.rendered (g.generation g.iterationCount).length path.lineCount path.size]⟩) ∨
      ∃ e, g.render options = ⟨.error e, (g.expand options.ceiling).records⟩ := by
  have houtcome : ((g.expand options.ceiling).mapError
        (CurveError.limitExceeded (α := Float))).outcome =
      ((g.projectedLength options.ceiling).map fun _ => g.generation g.iterationCount).mapError
        .limitExceeded := by
    rw [← expand_outcome]
    rfl
  -- A refusal by the ceiling leaves the records of the expansion, which are none.
  cases hproj : g.projectedLength options.ceiling with
  | error e =>
    rw [hproj] at houtcome
    refine Or.inr ⟨.limitExceeded e, ?_⟩
    rw [render, Logged.bind_of_error _ houtcome]
    rfl
  | ok length =>
    rw [hproj] at houtcome
    rw [render, Logged.bind_of_ok _ houtcome]
    cases (Interpreter.ofOptions options).interpret (g.generation g.iterationCount) g.motion with
    | error e =>
      refine Or.inr ⟨e, ?_⟩
      show (⟨_, (g.expand options.ceiling).records ++ []⟩ : Logged _ _) = _
      rw [List.append_nil]
      rfl
    | ok path => exact Or.inl ⟨path, rfl⟩

end Grammar

/-! ## Lines -/

/-- The line of a record: its level and its text. -/
def LogRecord.line (record : LogRecord) : LogLevel × String :=
  (record.level, record.text)

/-- The lines that a computation logs. -/
def Logged.lines {ε β : Type} (x : Logged ε β) : List (LogLevel × String) :=
  x.records.map LogRecord.line

/-- The log of an expansion and of a rendering. Expanding logs nothing if it fails; otherwise the
length of its answer, then each generation that it builds with its size in bytes, and then that no
productions are left if generation `j`, where it stops, is not the last that was asked for.
Rendering adds one line about the path if there is a path, and nothing if there is none. -/
theorem lines_logged (g : Grammar) :
    let n := g.iterationCount
    (∀ limit : Option UInt64,
      let run := g.expand (limit.map UInt64.toNat)
      (∃ e, run.outcome = .error e ∧ run.lines = []) ∨
      ∃ w j, run.outcome = .ok w ∧
        IsLeast {j | j ≤ n ∧ (j = n ∨ ∀ c ∈ g.generation j, g.production? c = none)} j ∧
        run.lines =
        (.debug, s!"expanding {n} generations, projected {min (2 ^ 128 - 1) w.length} symbols") ::
        (((List.range j).map fun i =>
          (.debug, s!"generation {i + 1}: {(g.generation (i + 1)).utf8Length} bytes")) ++
        if j < n then [(.debug, s!"generation {j + 1}: no productions left, stopping")]
        else [])) ∧
    ∀ options : DrawingOptions Float,
      let run := g.render options
      let m := (g.generation n).length
      (∃ path, run.outcome = .ok path ∧
        run.lines = (g.expand options.ceiling).lines ++ [(.info,
          s!"rendered {m} symbols into {path.lineCount} segments ({path.size} primitives)")]) ∨
      ∃ e, run.outcome = .error e ∧ run.lines = (g.expand options.ceiling).lines := by
  intro n
  refine ⟨fun limit => ?_, fun options => ?_⟩
  · rcases g.expand_records limit with ⟨e, h⟩ | ⟨j, hj, h⟩
    · rw [h]
      exact Or.inl ⟨e, rfl, rfl⟩
    · rw [h]
      refine Or.inr ⟨_, j, rfl, hj, ?_⟩
      rw [Logged.lines, List.map_cons, List.map_append, List.map_map]
      refine congrArg₂ List.cons rfl (congrArg₂ (· ++ ·) rfl ?_)
      split <;> rfl
  · rcases g.render_records options with ⟨path, h⟩ | ⟨e, h⟩
    · rw [h]
      refine Or.inl ⟨path, rfl, ?_⟩
      rw [Logged.lines, List.map_append]
      rfl
    · rw [h]
      exact Or.inr ⟨e, rfl, rfl⟩

end TurtleCurves
