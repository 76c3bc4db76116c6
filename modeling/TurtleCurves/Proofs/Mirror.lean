import TurtleCurves.Proofs.FloatSigns
import TurtleCurves.Proofs.Spelling

/-!
# Mirrored turns

A symbol that reverses turns, put in front of a word, has the effect of a table in which every turn
goes the other way. The two runs never agree on the sign of the turns: the one starts with minus one
and the other with one, and every later reversal, every saved turtle and every return keeps the
signs opposite. They agree on everything else, because a turn uses the sign and the amount of the
command only in a product, in which the one can be negated instead of the other (`NegMul`).

`mirrored` negates the amounts of a table and the signs of a machine; `step_mirrored` says that a
machine with opposite signs takes the step that its original takes with the opposite amount.
-/

namespace TurtleCurves

variable {α : Type} [Scalar α]

/-! ## Opposite amounts and opposite signs -/

/-- A turn goes the other way; the other commands stay. -/
def Command.mirrored : Command α → Command α
  | yaw factor => .yaw (-factor)
  | yawSecondary factor => .yawSecondary (-factor)
  | pitch factor => .pitch (-factor)
  | roll factor => .roll (-factor)
  | cmd => cmd

/-- The table in which every turn goes the other way. -/
def SymbolTable.mirrored (table : SymbolTable α) : SymbolTable α :=
  ⟨table.commands.map fun _ cmd => cmd.mirrored⟩

/-- A symbol stands for the mirror image of what it stood for, and is ignored if it was. -/
theorem SymbolTable.command_mirrored (table : SymbolTable α) (c : Symbol) :
    table.mirrored.command c = (table.command c).mirrored := by
  rw [command, command, mirrored, Std.ExtTreeMap.getElem?_map]
  cases table.commands[c]? <;> rfl

/-- The turtle with the opposite sign. -/
def Turtle.mirrored (t : Turtle α) : Turtle α :=
  { t with turnSign := -t.turnSign }

/-- The machine with the opposite sign in its turtle and in every saved turtle. -/
def Machine.mirrored (m : Machine α) : Machine α :=
  ⟨m.turtle.mirrored, m.saved.map Turtle.mirrored⟩

/-- As many turtles are saved as before. -/
theorem Machine.size_saved_mirrored (m : Machine α) : m.mirrored.saved.size = m.saved.size :=
  Array.size_map

/-- The walk with the opposite sign in its machine and the same path. -/
def Walk.mirrored (walk : Walk α) : Walk α :=
  { walk with machine := walk.machine.mirrored }

/-! ## The first step -/

variable {s : Settings α}

/-- Before the first symbol nothing is saved, so reversing the turns is mirroring the machine. -/
theorem Machine.step_start_reverseTurns (options : DrawingOptions α) (motion : TurtleMotion α) :
    (start options motion).step s .reverseTurns = .ok ((start options motion).mirrored, []) := by
  have hsaved : (start options motion).saved.map Turtle.mirrored = #[] := Array.map_empty
  rw [step, mirrored, hsaved]
  rfl

/-- A walk whose first symbol reverses the turns is the mirrored walk behind it. -/
theorem Walk.step_start_reverseTurns {table : SymbolTable α} {options : DrawingOptions α}
    {motion : TurtleMotion α} {r : Symbol} (hr : table.command r = .reverseTurns) (index : Nat) :
    (start options motion).step table s index r = .ok (start options motion).mirrored := by
  rw [step, hr, start, Machine.step_start_reverseTurns]
  rfl

/-! ## Steps -/

variable [NegMul α]

/-- The opposite sign turns by the opposite amount. -/
theorem Machine.signed_mirrored (m : Machine α) (angle factor : α) :
    m.mirrored.signed angle factor = m.signed angle (-factor) :=
  NegMul.mul_mul_neg angle factor m.turtle.turnSign

/-- With the opposite signs a command does what its mirror image does. -/
theorem Machine.step_mirrored (m : Machine α) (cmd : Command α) :
    m.mirrored.step s cmd = (m.step s cmd.mirrored).map fun r => (r.1.mirrored, r.2) := by
  cases cmd with
  | draw | drawScaled | move | drawFromStart | lift _ | roundTrip | scale | stepDelta _
  | colorToggle | ignore | reverseTurns => rfl
  | yaw factor | yawSecondary factor | pitch factor | roll factor =>
    -- The sign passes from the turtle to the amount, and nothing else looks at it.
    rw [step, signed_mirrored]
    rfl
  | shrink =>
    show m.mirrored.step s .shrink = (m.step s .shrink).map _
    rw [step, step]
    split <;> rfl
  | push =>
    show m.mirrored.step s .push = (m.step s .push).map _
    have hpush : m.mirrored.saved.push m.mirrored.turtle =
        (m.saved.push m.turtle).map Turtle.mirrored := Array.map_push.symm
    rw [step, step, size_saved_mirrored, hpush]
    split <;> rfl
  | pop =>
    show m.mirrored.step s .pop = (m.step s .pop).map _
    have hback : m.mirrored.saved.back? = m.saved.back?.map Turtle.mirrored := Array.back?_map
    have hpop : m.mirrored.saved.pop = m.saved.pop.map Turtle.mirrored := Array.map_pop.symm
    rw [step, step, hback, hpop]
    cases m.saved.back? with
    | none => rfl
    | some t => rfl

/-! ## Walks -/

/-- The walk with the opposite signs is one position further on, since the first symbol is the one
that reversed the turns. -/
theorem Walk.step_mirrored (table : SymbolTable α) (index : Nat) (walk : Walk α) (c : Symbol) :
    walk.mirrored.step table s (index + 1) c =
      ((walk.step table.mirrored s index c).map Walk.mirrored).mapError
        (CurveError.reposition (· + 1)) := by
  have hstep : walk.mirrored.machine.step s (table.command c) =
      (walk.machine.step s (table.mirrored.command c)).map fun r => (r.1.mirrored, r.2) := by
    rw [table.command_mirrored]
    exact walk.machine.step_mirrored _
  rw [step, step, hstep]
  cases walk.machine.step s (table.mirrored.command c) with
  | ok next => rfl
  | error fault =>
    -- An error carries the path, which is the same, and the position.
    show Except.error _ = Except.error _
    rw [StepFault.reposition_toError]
    rfl

/-- The mirrored walk goes along a word as the walk does along it in the mirrored table, one
position further on. -/
theorem Walk.along_mirrored (table : SymbolTable α) (index : Nat) (walk : Walk α) (w : Word) :
    along table s (index + 1) walk.mirrored w =
      ((along table.mirrored s index walk w).map Walk.mirrored).mapError
        (CurveError.reposition (· + 1)) := by
  -- By induction on the word; `step_mirrored` keeps the two walks opposite.
  induction w generalizing index walk with
  | nil => rfl
  | cons c w ih =>
    rw [along_cons, along_cons, walk.step_mirrored]
    cases walk.step table.mirrored s index c with
    | ok next => exact ih _ _
    | error e => rfl

/-- A symbol that reverses turns, put in front of a word, is worth a table in which every turn goes
the other way: the path is the same to the last bit, and an error is the same with its position
moved by one. The word may reverse turns again, open branches and return, and face the starting
direction again. -/
theorem interpret_reverseTurns (interpreter : Interpreter α) (motion : TurtleMotion α) {r : Symbol}
    (hr : interpreter.table.command r = .reverseTurns) (w : Word) :
    interpreter.interpret (r :: w) motion =
      ((interpreter.withTable interpreter.table.mirrored).interpret w motion).mapError
        (CurveError.reposition (· + 1)) := by
  let start := Walk.start interpreter.options motion
  have hstep : start.step interpreter.table (interpreter.settings motion) 0 r =
      .ok start.mirrored := Walk.step_start_reverseTurns hr 0
  have hpath : ∀ answer : Except (CurveError α) (Walk α),
      ((answer.map Walk.mirrored).mapError (CurveError.reposition (· + 1))).map (·.path) =
        (answer.map (·.path)).mapError (CurveError.reposition (· + 1)) := by
    rintro (e | walk) <;> rfl
  calc interpreter.interpret (r :: w) motion
    _ = (Walk.along interpreter.table (interpreter.settings motion) (0 + 1) start.mirrored w).map
          (·.path) := by
        rw [Interpreter.interpret, Interpreter.walk, Walk.along_cons, hstep]
        rfl
    _ = (((Walk.along interpreter.table.mirrored (interpreter.settings motion) 0 start w).map
          Walk.mirrored).mapError (CurveError.reposition (· + 1))).map (·.path) := by
        rw [Walk.along_mirrored]
    _ = _ := hpath _

/-- A word with a second reversal inside a branch, a turn back to the starting direction and a
return without a branch. -/
theorem interpret_reverseTurns_return :
    let interpreter := Interpreter.ofOptions { DrawingOptions.standard with alphabet := .classic }
    interpreter.table.command '!' = .reverseTurns ∧
      ∃ drawn,
        (interpreter.withTable interpreter.table.mirrored).interpret "F+[!-F_P]>F]".toList
            ⟨30, 45, 0.5⟩ = .error (.unbalancedBranch 11 drawn) ∧
        interpreter.interpret "!F+[!-F_P]>F]".toList ⟨30, 45, 0.5⟩ =
          .error (.unbalancedBranch 12 drawn) := by
  intro interpreter
  have hr : interpreter.table.command '!' = .reverseTurns := rfl
  obtain ⟨drawn, h⟩ : ∃ drawn,
      (interpreter.withTable interpreter.table.mirrored).interpret "F+[!-F_P]>F]".toList
        ⟨30, 45, 0.5⟩ = .error (.unbalancedBranch 11 drawn) := ⟨_, rfl⟩
  have hreversed := interpret_reverseTurns interpreter ⟨30, 45, 0.5⟩ hr "F+[!-F_P]>F]".toList
  rw [h] at hreversed
  exact ⟨hr, drawn, h, hreversed⟩

end TurtleCurves
