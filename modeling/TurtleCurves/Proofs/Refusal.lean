import TurtleCurves.Proofs.Nesting

/-!
# Where a walk ends

A walk that does not get to the end of its word fails at one symbol. `OffendsAt` tells from the
commands of a word, without a machine, at which positions a command cannot be performed: the stack
is replaced by the depth of the part before. The result is that the least of these positions alone
decides the answer, whatever stands behind it.

## Shape of the proof

`along_eq_error_iff` splits a failing walk into a walk that succeeds and a step that does not, and
`Walk.step_eq_error_iff` says when a step fails and with what. The stack at that step is as high as
the part before is deep (`size_of_walk`), so the fault is read off the word. One amount needs more:
a walk that is refused for want of room asks for exactly one turtle more than the ceiling, since no
step raises the stack above it (`Effect.size_le`).
-/

namespace TurtleCurves

/-! ## Steps that fail -/

/-- A stack within the ceiling stays within it. -/
theorem Machine.Effect.size_le {α : Type} [Scalar α] {s : Settings α} {m m' : Machine α}
    {cmd : Command α} {ps : List (Primitive α)} (h : Effect s m cmd m' ps)
    (hm : m.saved.size ≤ s.maxStackDepth) : m'.saved.size ≤ s.maxStackDepth := by
  cases h with
  | pushed hroom =>
    rw [Array.size_push]
    exact hroom
  | popped =>
    rw [Array.size_pop]
    omega
  | drawn | moved | returned | turned | rescaled | recolored => exact hm

namespace Walk

variable {α : Type} [Scalar α] {table : SymbolTable α} {s : Settings α}

/-- A walk fails at a symbol whose command cannot be performed, with the path up to there. -/
theorem step_eq_error_iff {index : Nat} {walk : Walk α} {c : Symbol} {e : CurveError α} :
    walk.step table s index c = .error e ↔
      Machine.Offends s walk.machine.saved.size (table.command c) ∧
        e = (Machine.faultOf walk.machine.saved.size (table.command c)).toError s index
          walk.path := by
  rw [step]
  cases hstep : walk.machine.step s (table.command c) with
  | ok next =>
    -- A step that succeeds is one that does not offend, so both sides are false.
    have hoff : ¬ Machine.Offends s walk.machine.saved.size (table.command c) :=
      Machine.exists_step_iff.1 ⟨next.1, next.2, hstep⟩
    simp [hoff]
  | error fault =>
    obtain ⟨hoff, rfl⟩ := Machine.step_eq_error_iff.1 hstep
    simp [hoff, eq_comm]

/-- A walk that fails succeeds up to the symbol at which it fails. -/
theorem along_eq_error_iff {index : Nat} {walk : Walk α} {w : Word} {e : CurveError α} :
    along table s index walk w = .error e ↔
      ∃ u c v last, w = u ++ c :: v ∧ along table s index walk u = .ok last ∧
        last.step table s (index + u.length) c = .error e := by
  constructor
  · intro h
    -- The walk stops at `d`, or the walk behind `d` stops and `d` belongs to what was walked.
    induction w generalizing index walk with
    | nil => cases h
    | cons d w ih =>
      rw [along_cons] at h
      cases hd : walk.step table s index d with
      | error e' =>
        rw [hd] at h
        cases h
        exact ⟨[], d, w, walk, rfl, rfl, hd⟩
      | ok next =>
        rw [hd] at h
        obtain ⟨u, c, v, last, rfl, hu, hc⟩ := ih h
        refine ⟨d :: u, c, v, last, rfl, ?_, ?_⟩
        · rw [along_cons, hd]
          exact hu
        · rw [List.length_cons, Nat.add_comm u.length, ← Nat.add_assoc]
          exact hc
  · rintro ⟨u, c, v, last, rfl, hu, hc⟩
    rw [along_append, hu]
    show along table s (index + u.length) last (c :: v) = .error e
    rw [along_cons, hc]
    rfl

end Walk

/-! ## Offending positions -/

namespace Interpreter

variable {α : Type} [Scalar α] {interpreter : Interpreter α} {motion : TurtleMotion α}

/-- The symbol at this position returns and no branch is open, opens a branch and as many as can be
are open, or divides the step by a coefficient that is zero. -/
def OffendsAt (interpreter : Interpreter α) (motion : TurtleMotion α) (w : Word) (i : Nat) : Prop :=
  ∃ c, w[i]? = some c ∧
    Machine.Offends (interpreter.settings motion) (interpreter.table.depth (w.take i))
      (interpreter.table.command c)

instance (w : Word) (i : Nat) : Decidable (interpreter.OffendsAt motion w i) :=
  match hc : w[i]? with
  | none => .isFalse (by simp [OffendsAt, hc])
  | some c =>
    decidable_of_iff
      (Machine.Offends (interpreter.settings motion) (interpreter.table.depth (w.take i))
        (interpreter.table.command c))
      (by simp [OffendsAt, hc])

/-- Whether a position offends is told from the part before it and the symbol there. -/
theorem offendsAt_append_cons_iff {u v : Word} {c : Symbol} :
    interpreter.OffendsAt motion (u ++ c :: v) u.length ↔
      Machine.Offends (interpreter.settings motion) (interpreter.table.depth u)
        (interpreter.table.command c) := by
  simp [OffendsAt]

/-- An offending position splits its word. -/
theorem OffendsAt.exists_eq {w : Word} {i : Nat} (h : interpreter.OffendsAt motion w i) :
    ∃ u c v, w = u ++ c :: v ∧ i = u.length := by
  obtain ⟨c, hc, -⟩ := h
  obtain ⟨hi, rfl⟩ := List.getElem?_eq_some_iff.1 hc
  refine ⟨w.take i, w[i], w.drop (i + 1), ?_, ?_⟩
  · rw [← List.drop_eq_getElem_cons hi, List.take_append_drop]
  · rw [List.length_take, Nat.min_eq_left hi.le]

/-- What stands behind a position does not matter to it. -/
theorem OffendsAt.append {u : Word} {i : Nat} (h : interpreter.OffendsAt motion u i) (v : Word) :
    interpreter.OffendsAt motion (u ++ v) i ∧ i < u.length := by
  obtain ⟨c, hc, hoff⟩ := h
  obtain ⟨hi, -⟩ := List.getElem?_eq_some_iff.1 hc
  refine ⟨⟨c, ?_, ?_⟩, hi⟩
  · rw [List.getElem?_append_left hi, hc]
  · rw [List.take_append_of_le_length hi.le]
    exact hoff

/-- A word can be walked to its end exactly if no position offends. -/
theorem exists_walk_iff {w : Word} :
    (∃ walk, interpreter.walk w motion = .ok walk) ↔ ∀ i, ¬ interpreter.OffendsAt motion w i := by
  rw [exists_walk_iff_exists_run, Machine.exists_run_iff]
  have hempty : ((Machine.start interpreter.options motion).saved.size : Int) = 0 := rfl
  simp only [hempty, Int.zero_add]
  constructor
  · intro h i hi
    obtain ⟨u, c, v, rfl, rfl⟩ := hi.exists_eq
    exact h u c ⟨v, by simp⟩ (offendsAt_append_cons_iff.1 hi)
  · rintro h u c ⟨v, rfl⟩ hoff
    refine h u.length ?_
    rw [List.append_assoc, List.singleton_append]
    exact offendsAt_append_cons_iff.2 hoff

/-- A walk that starts within the ceiling stays within it. -/
theorem size_of_walk_le {w : Word} {walk : Walk α} (h : interpreter.walk w motion = .ok walk) :
    walk.machine.saved.size ≤ interpreter.options.maxStackDepth.toNat := by
  obtain ⟨ps, hrun, -⟩ := walk_eq_ok_iff.1 h
  have hstart : (Machine.start interpreter.options motion).saved.size ≤
      (interpreter.settings motion).maxStackDepth := Nat.zero_le _
  -- The invariant of the run does not look at what was emitted.
  exact @Machine.run_preserves α _ interpreter.table (interpreter.settings motion)
    (fun m _ => m.saved.size ≤ (interpreter.settings motion).maxStackDepth)
    (fun hm heffect => heffect.size_le hm) _ _ w [] ps hstart hrun

/-- The path of a word is refused by the first symbol that cannot be passed, after a walk along the
part before it. -/
theorem interpret_eq_error_iff {w : Word} {e : CurveError α} :
    interpreter.interpret w motion = .error e ↔
      ∃ u c v last, w = u ++ c :: v ∧ interpreter.walk u motion = .ok last ∧
        interpreter.OffendsAt motion w u.length ∧
        e = (Machine.faultOf last.machine.saved.size (interpreter.table.command c)).toError
          (interpreter.settings motion) u.length last.path := by
  have hwalk : interpreter.interpret w motion = .error e ↔
      interpreter.walk w motion = .error e := by
    rw [interpret]
    cases interpreter.walk w motion with
    | ok walk => simp [Except.map]
    | error e' => simp [Except.map]
  rw [hwalk, walk, Walk.along_eq_error_iff]
  constructor
  · rintro ⟨u, c, v, last, rfl, hu, hc⟩
    obtain ⟨hoff, he⟩ := Walk.step_eq_error_iff.1 hc
    rw [size_of_walk hu] at hoff
    refine ⟨u, c, v, last, rfl, hu, offendsAt_append_cons_iff.2 hoff, ?_⟩
    rw [he, Nat.zero_add]
  · rintro ⟨u, c, v, last, rfl, hu, hoff, he⟩
    refine ⟨u, c, v, last, rfl, hu, Walk.step_eq_error_iff.2 ⟨?_, ?_⟩⟩
    · rw [size_of_walk hu]
      exact offendsAt_append_cons_iff.1 hoff
    · rw [he, Nat.zero_add]

end Interpreter

/-! ## The first offending position -/

section Interpreter

variable {α : Type} [Scalar α]

/-- A word has a path exactly if none of its positions offends, and the path then goes on from the
paths of all its beginnings. Otherwise the first offending position decides the answer, whatever
stands behind it: a return without a branch is reported with its position and the path up to there,
a branch too many with the ceiling and one more, and a division by zero with its position. -/
theorem interpret_first_offence (interpreter : Interpreter α) (motion : TurtleMotion α) (w : Word) :
    ((∃ path, interpreter.interpret w motion = .ok path) ↔
        ∀ i, ¬ interpreter.OffendsAt motion w i) ∧
      (∀ path, interpreter.interpret w motion = .ok path → ∀ u, u <+: w →
        ∃ short, interpreter.interpret u motion = .ok short ∧ short.toList <+: path.toList) ∧
      ∀ i, interpreter.OffendsAt motion w i → (∀ j < i, ¬ interpreter.OffendsAt motion w j) →
        ∃ (c : Symbol) (drawn : Drawing α) (e : CurveError α),
          w[i]? = some c ∧
          interpreter.interpret (w.take i) motion = .ok drawn ∧
          interpreter.interpret w motion = .error e ∧
          (∀ v, interpreter.interpret (w.take (i + 1) ++ v) motion = .error e) ∧
          (interpreter.table.command c = .pop ∧ e = .unbalancedBranch i drawn ∨
            interpreter.table.command c = .push ∧
              e = .limitExceeded ⟨.stackDepth, interpreter.options.maxStackDepth.toNat,
                interpreter.options.maxStackDepth.toNat + 1⟩ ∨
            interpreter.table.command c = .shrink ∧
              e = .invalidGrammar (.zeroCoefficient i) ∧
              e.message =
                s!"invalid grammar: symbol {i} divides the step by a zero scale coefficient") := by
  refine ⟨?_, ?_, ?_⟩
  · rw [Interpreter.exists_interpret_iff, Interpreter.exists_walk_iff]
  · rintro path h u ⟨v, rfl⟩
    obtain ⟨machine, hwalk⟩ := Interpreter.interpret_eq_ok_iff.1 h
    obtain ⟨before, ps, hu, -, hpath⟩ := Interpreter.walk_append_eq_ok_iff.1 hwalk
    exact ⟨before.path, Interpreter.interpret_eq_ok_iff.2 ⟨before.machine, hu⟩, ps, hpath.symm⟩
  · intro i hi hbefore
    obtain ⟨u, c, v, rfl, rfl⟩ := hi.exists_eq
    -- An offending position of `u` would be an earlier one of the whole word.
    obtain ⟨last, hu⟩ : ∃ last, interpreter.walk u motion = .ok last :=
      Interpreter.exists_walk_iff.2 fun j hj =>
        hbefore j (hj.append (c :: v)).2 (hj.append (c :: v)).1
    have hoff := Interpreter.offendsAt_append_cons_iff.1 hi
    have herror : ∀ v', interpreter.interpret (u ++ c :: v') motion =
        .error ((Machine.faultOf last.machine.saved.size (interpreter.table.command c)).toError
          (interpreter.settings motion) u.length last.path) := fun v' =>
      Interpreter.interpret_eq_error_iff.2
        ⟨u, c, v', last, rfl, hu, Interpreter.offendsAt_append_cons_iff.2 hoff, rfl⟩
    refine ⟨c, last.path, _, by simp, ?_, herror v, fun v' => ?_, ?_⟩
    · rw [List.take_left]
      exact Interpreter.interpret_eq_ok_iff.2 ⟨last.machine, hu⟩
    · rw [List.take_length_add_append, List.append_assoc]
      exact herror v'
    · cases hc : interpreter.table.command c with
      | pop => exact Or.inl ⟨rfl, rfl⟩
      | push =>
        -- The stack is not below the ceiling and never above it, so the amount asked for is exact.
        have hfull : last.machine.saved.size = interpreter.options.maxStackDepth.toNat := by
          rw [hc, Machine.Offends, ← Interpreter.size_of_walk hu, Int.ofNat_le] at hoff
          exact Nat.le_antisymm (Interpreter.size_of_walk_le hu) hoff
        refine Or.inr (Or.inl ⟨rfl, ?_⟩)
        rw [Machine.faultOf, hfull]
        rfl
      | shrink => exact Or.inr (Or.inr ⟨rfl, rfl, rfl⟩)
      | _ =>
        rw [hc] at hoff
        exact hoff.elim

/-- A return without a branch, with more behind it that could not be passed either. -/
theorem interpret_first_offence_return :
    ∃ drawn, (Interpreter.ofOptions DrawingOptions.standard).interpret "F[]".toList ⟨90, 0, 1⟩ =
        .ok drawn ∧
      (Interpreter.ofOptions DrawingOptions.standard).interpret "F[]]F]".toList ⟨90, 0, 1⟩ =
        .error (.unbalancedBranch 3 drawn) := by
  obtain ⟨c, drawn, e, hc, hdrawn, herror, -, hcases⟩ :=
    (interpret_first_offence (Interpreter.ofOptions DrawingOptions.standard) ⟨90, 0, 1⟩
      "F[]]F]".toList).2.2 3 (by decide +kernel) (by decide +kernel)
  obtain rfl : ']' = c := Option.some.inj hc
  rcases hcases with ⟨-, rfl⟩ | ⟨hpush, -⟩ | ⟨hshrink, -⟩
  · exact ⟨drawn, hdrawn, herror⟩
  · cases hpush
  · cases hshrink

end Interpreter

end TurtleCurves
