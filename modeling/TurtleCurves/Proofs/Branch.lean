import TurtleCurves.Proofs.Nesting

/-!
# Branches are transparent

A branch is a balanced word between a symbol that saves the turtle and one that restores it.
Whatever the word does in between, the machine that leaves the branch is the one that entered it,
the stack included (`run_branch`), so the symbols behind the branch emit what they would emit
without it. The branch itself adds to the path what the word emits and the marks of the return.

## Shape of the proof

The word starts above the turtle that was saved for it. `saved_of_run_balanced` says that it leaves
the stack as it found it, so the turtle that is restored is the one that was saved. For the
converse `exists_run_of_balanced` runs the word: nothing in it offends as long as the stack has room
for its nesting, and the return never fails since the word starts above a saved turtle.
-/

namespace TurtleCurves

namespace Machine

variable {α : Type} [Scalar α] {table : SymbolTable α} {s : Settings α}

/-! ## Entering and leaving -/

/-- The turtle can be saved if there is room, and nothing is emitted. -/
theorem step_push_eq_ok_iff {m m' : Machine α} {ps : List (Primitive α)} :
    m.step s .push = .ok (m', ps) ↔
      m.saved.size < s.maxStackDepth ∧ m' = ⟨m.turtle, m.saved.push m.turtle⟩ ∧ ps = [] := by
  rw [step]
  by_cases hfull : s.maxStackDepth ≤ m.saved.size
  · simp [hfull, Nat.not_lt_of_le hfull]
  · simp [hfull, Nat.lt_of_not_le hfull, eq_comm]

/-- The machine can return if a turtle was saved, and the last of them takes over. -/
theorem step_pop_eq_ok_iff {m m' : Machine α} {ps : List (Primitive α)} :
    m.step s .pop = .ok (m', ps) ↔
      ∃ t, m.saved.back? = some t ∧ m' = ⟨t, m.saved.pop⟩ ∧ ps = restoring s m.turtle t := by
  rw [step]
  cases m.saved.back? with
  | none => simp
  | some t => simp [eq_comm]

/-- The last thing that a branch emits is what announces the return. -/
theorem exists_restoring_eq (s : Settings α) (current saved : Turtle α) :
    ∃ scale color : List (Primitive α),
      restoring s current saved = .moveTo saved.position :: (scale ++ color) ∧
        (scale = [] ∨ scale = [scaleMark s saved]) ∧
        (color = [] ∨ color = [.setColor saved.color]) := by
  refine ⟨_, _, rfl, ?_, ?_⟩
  · split
    · exact Or.inl rfl
    · exact Or.inr rfl
  · split
    · exact Or.inl rfl
    · exact Or.inr rfl

section Branch

variable {a b : Symbol} {w : Word} (ha : table.command a = .push) (hb : table.command b = .pop)
  (hw : table.Balanced w)

include ha hb hw

/-- A branch ends with the machine with which it began, after it emitted what its word emits and
what announces the return. -/
theorem run_branch {m m' : Machine α} {rs : List (Primitive α)}
    (h : m.run table s (a :: w ++ [b]) = .ok (m', rs)) :
    m' = m ∧ ∃ inner current, rs = inner ++ restoring s current m.turtle := by
  obtain ⟨m₂, ps, qs, hin, hlast, rfl⟩ := run_append_eq_ok_iff.1 h
  obtain ⟨m₁, none, inner, hpush, hinner, rfl⟩ := run_cons_eq_ok_iff.1 hin
  obtain ⟨m₃, marks, rest, hpop, hnil, rfl⟩ := run_cons_eq_ok_iff.1 hlast
  obtain ⟨rfl, rfl⟩ := run_nil_eq_ok_iff.1 hnil
  rw [ha, step_push_eq_ok_iff] at hpush
  rw [hb, step_pop_eq_ok_iff] at hpop
  obtain ⟨-, rfl, rfl⟩ := hpush
  obtain ⟨t, hback, rfl, rfl⟩ := hpop
  -- The word leaves the stack as the first symbol left it, so its top is the turtle of `m`.
  have hsaved : m₂.saved = m.saved.push m.turtle := saved_of_run_balanced hw hinner
  rw [hsaved, Array.back?_push] at hback
  obtain rfl : m.turtle = t := Option.some.inj hback
  refine ⟨?_, inner, m₂.turtle, ?_⟩
  · rw [hsaved, Array.pop_push]
  · rw [List.nil_append, List.append_nil]

/-- A branch can be passed if there is room for the branches that it opens at once and the step can
be divided where its word does so. -/
theorem exists_run_branch {m : Machine α}
    (hroom : (m.saved.size : Int) + 1 + table.nesting w ≤ s.maxStackDepth)
    (hshrink : (∀ c ∈ w, table.command c ≠ .shrink) ∨ (s.coefficient == 0) = false) :
    ∃ rs, m.run table s (a :: w ++ [b]) = .ok (m, rs) := by
  have hpush : m.step s (table.command a) = .ok (⟨m.turtle, m.saved.push m.turtle⟩, []) := by
    have hnesting := table.nesting_nonneg w
    rw [ha, step_push_eq_ok_iff]
    exact ⟨by omega, rfl, rfl⟩
  -- The saved turtle takes one place, so the word has one less.
  have hroom' : ((m.saved.push m.turtle).size : Int) + table.nesting w ≤ s.maxStackDepth := by
    rw [Array.size_push]
    omega
  obtain ⟨m₂, inner, hinner⟩ :=
    exists_run_of_balanced (m := ⟨m.turtle, m.saved.push m.turtle⟩) hw hroom' hshrink
  have hsaved : m₂.saved = m.saved.push m.turtle := saved_of_run_balanced hw hinner
  have hpop : m₂.step s (table.command b) = .ok (m, restoring s m₂.turtle m.turtle) := by
    rw [hb, step_pop_eq_ok_iff]
    refine ⟨m.turtle, ?_, ?_, rfl⟩
    · rw [hsaved, Array.back?_push]
    · rw [hsaved, Array.pop_push]
  have hlast : m₂.run table s [b] = .ok (m, restoring s m₂.turtle m.turtle) :=
    run_cons_eq_ok_iff.2 ⟨m, _, [], hpop, rfl, (List.append_nil _).symm⟩
  exact ⟨_, run_append_eq_ok_iff.2
    ⟨m₂, _, _, run_cons_eq_ok_iff.2 ⟨_, _, _, hpush, hinner, rfl⟩, hlast, rfl⟩⟩

end Branch

end Machine

/-! ## Paths with and without a branch -/

section Interpreter

variable {α : Type} [Scalar α] {interpreter : Interpreter α} {motion : TurtleMotion α}

/-- Taking a branch out of a word takes out of its path what the branch emits and leaves everything
else alone. What the branch emits ends with the return to where the pen was before it, then the
scale if it differs and then the colour if it differs. A branch can be put into a word wherever the
stack has room for it, unless it divides the step by zero. -/
theorem interpret_branch (interpreter : Interpreter α) (motion : TurtleMotion α) {a b : Symbol}
    {w : Word} (ha : interpreter.table.command a = .push) (hb : interpreter.table.command b = .pop)
    (hw : interpreter.table.Balanced w) (u v : Word) :
    (∀ path, interpreter.interpret (u ++ (a :: w ++ [b]) ++ v) motion = .ok path →
      ∃ (before : Walk α) (short : Drawing α) (branch inner scale color after : List (Primitive α)),
        interpreter.walk u motion = .ok before ∧
        interpreter.interpret u motion = .ok before.path ∧
        interpreter.interpret (u ++ v) motion = .ok short ∧
        path.toList = before.path.toList ++ branch ++ after ∧
        short.toList = before.path.toList ++ after ∧
        branch = inner ++ .moveTo before.machine.turtle.position :: (scale ++ color) ∧
        (scale = [] ∨ scale =
          [.setScale (before.machine.turtle.stepLength / interpreter.options.unitLength)]) ∧
        (color = [] ∨ color = [.setColor before.machine.turtle.color])) ∧
    ∀ short, interpreter.interpret (u ++ v) motion = .ok short →
      interpreter.table.depth u + 1 + interpreter.table.nesting w ≤
        (interpreter.options.maxStackDepth.toNat : Int) →
      ((∀ c ∈ w, interpreter.table.command c ≠ .shrink) ∨
        (motion.scaleCoefficient == 0) = false) →
      ∃ path, interpreter.interpret (u ++ (a :: w ++ [b]) ++ v) motion = .ok path := by
  constructor
  · intro path h
    obtain ⟨machine, hwalk⟩ := Interpreter.interpret_eq_ok_iff.1 h
    obtain ⟨mid, after, hmid, hv, hpath⟩ := Interpreter.walk_append_eq_ok_iff.1 hwalk
    obtain ⟨before, branch, hu, hbranch, hmidpath⟩ := Interpreter.walk_append_eq_ok_iff.1 hmid
    obtain ⟨hmachine, inner, current, hemitted⟩ := Machine.run_branch ha hb hw hbranch
    obtain ⟨scale, color, hmarks, hscale, hcolor⟩ := Machine.exists_restoring_eq
      (interpreter.settings motion) current before.machine.turtle
    -- Behind the branch the machine is the one of `before`, so `v` emits the same without it.
    rw [hmachine] at hv
    have hshort : interpreter.walk (u ++ v) motion = .ok ⟨machine, before.path.append after⟩ :=
      Interpreter.walk_append_eq_ok_iff.2 ⟨before, after, hu, hv, Drawing.toList_append _ _⟩
    refine ⟨before, before.path.append after, branch, inner, scale, color, after, hu,
      Interpreter.interpret_eq_ok_iff.2 ⟨before.machine, hu⟩,
      Interpreter.interpret_eq_ok_iff.2 ⟨machine, hshort⟩, ?_, Drawing.toList_append _ _, ?_,
      hscale, hcolor⟩
    · rw [← hmidpath]
      exact hpath
    · rw [hemitted, hmarks]
  · intro short h hroom hshrink
    obtain ⟨machine, hwalk⟩ := Interpreter.interpret_eq_ok_iff.1 h
    obtain ⟨before, after, hu, hv, -⟩ := Interpreter.walk_append_eq_ok_iff.1 hwalk
    -- The stack before the branch is as high as `u` is deep.
    rw [← Interpreter.size_of_walk hu] at hroom
    obtain ⟨branch, hbranch⟩ := Machine.exists_run_branch (s := interpreter.settings motion)
      ha hb hw hroom hshrink
    have hmid : interpreter.walk (u ++ (a :: w ++ [b])) motion =
        .ok ⟨before.machine, before.path.append branch⟩ :=
      Interpreter.walk_append_eq_ok_iff.2 ⟨before, branch, hu, hbranch, Drawing.toList_append _ _⟩
    have hlong : interpreter.walk (u ++ (a :: w ++ [b]) ++ v) motion =
        .ok ⟨machine, (before.path.append branch).append after⟩ :=
      Interpreter.walk_append_eq_ok_iff.2 ⟨_, after, hmid, hv, Drawing.toList_append _ _⟩
    exact ⟨_, Interpreter.interpret_eq_ok_iff.2 ⟨machine, hlong⟩⟩

/-- A branch with a branch inside that changes step and colour. -/
theorem interpret_branch_nested :
    (Interpreter.ofOptions DrawingOptions.standard).table.Balanced "[+F].*".toList ∧
      ∃ (path short : Drawing Float) (before : Walk Float) (branch after : List (Primitive Float)),
        (Interpreter.ofOptions DrawingOptions.standard).walk "F".toList ⟨90, 0, 0.5⟩ = .ok before ∧
        (Interpreter.ofOptions DrawingOptions.standard).interpret "F[[+F].*]F".toList ⟨90, 0, 0.5⟩ =
          .ok path ∧
        (Interpreter.ofOptions DrawingOptions.standard).interpret "FF".toList ⟨90, 0, 0.5⟩ =
          .ok short ∧
        path.toList = before.path.toList ++ branch ++ after ∧
        short.toList = before.path.toList ++ after := by
  have hw : (Interpreter.ofOptions DrawingOptions.standard).table.Balanced "[+F].*".toList := by
    decide +kernel
  obtain ⟨htake, hput⟩ := interpret_branch (Interpreter.ofOptions DrawingOptions.standard)
    ⟨90, 0, 0.5⟩ (a := '[') (b := ']') rfl rfl hw "F".toList "F".toList
  obtain ⟨path, hpath⟩ := hput _ rfl (by decide +kernel) (Or.inr rfl)
  obtain ⟨before, short, branch, _, _, _, after, hu, -, hshort, heq, heq', -⟩ := htake path hpath
  exact ⟨hw, path, short, before, branch, after, hu, hpath, hshort, heq, heq'⟩

end Interpreter

end TurtleCurves
