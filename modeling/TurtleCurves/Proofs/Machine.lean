import TurtleCurves.Turtle.Interpretation

/-!
# Steps and runs of the drawing machine

`Effect` lists what a command can do to the machine, one constructor for each kind of command, and
`effect_of_step` says that a step does nothing else. Invariants of the machine are proved from the
constructors and never from the commands themselves. `step_eq_error_iff` is the other half: it says
when there is no next machine.

`Machine.run` performs a whole word without a path or positions. A walk is a run whose primitives
are added to a path (`along_eq_ok_iff`), so what a word adds to a path depends only on the machine
at which it starts. This is what lets two walks with different pasts be compared.
-/

namespace TurtleCurves

namespace Command

variable {α : Type}

/-- The command draws one segment and ends where the segment ends. -/
def drawsForward : Command α → Bool
  | draw | drawScaled | drawFromStart | lift _ => true
  | _ => false

/-- The command draws, forward or forward and back. -/
def draws : Command α → Bool
  | roundTrip => true
  | cmd => cmd.drawsForward

/-- The command changes at most the frame of the turtle: its orientation or the sign of its turns.
-/
def turns : Command α → Bool
  | yaw _ | yawSecondary _ | pitch _ | roll _ | reverseTurns | ignore => true
  | _ => false

/-- The command changes the step length. -/
def rescales : Command α → Bool
  | scale | shrink | stepDelta _ => true
  | _ => false

/-- The kind of a command, which is the command without its amount. -/
def kind : Command α → Command Unit
  | draw => .draw
  | drawScaled => .drawScaled
  | move => .move
  | drawFromStart => .drawFromStart
  | lift _ => .lift ()
  | roundTrip => .roundTrip
  | yaw _ => .yaw ()
  | yawSecondary _ => .yawSecondary ()
  | pitch _ => .pitch ()
  | roll _ => .roll ()
  | reverseTurns => .reverseTurns
  | scale => .scale
  | shrink => .shrink
  | stepDelta _ => .stepDelta ()
  | colorToggle => .colorToggle
  | push => .push
  | pop => .pop
  | ignore => .ignore

/-- Whether a command draws can be told from its kind. -/
@[simp] theorem draws_kind (cmd : Command α) : cmd.kind.draws = cmd.draws := by
  cases cmd <;> rfl

/-- Only the command that saves the turtle is of its kind. -/
@[simp] theorem kind_eq_push {cmd : Command α} : cmd.kind = .push ↔ cmd = .push := by
  cases cmd <;> simp [kind]

@[simp] theorem kind_eq_pop {cmd : Command α} : cmd.kind = .pop ↔ cmd = .pop := by
  cases cmd <;> simp [kind]

@[simp] theorem kind_eq_colorToggle {cmd : Command α} :
    cmd.kind = .colorToggle ↔ cmd = .colorToggle := by
  cases cmd <;> simp [kind]

end Command

namespace Machine

variable {α : Type} [Scalar α]

/-! ## What a command does -/

/-- What a command can do to a machine, and what it emits. -/
inductive Effect (s : Settings α) (m : Machine α) :
    Command α → Machine α → List (Primitive α) → Prop
  | drawn {cmd : Command α} (hcmd : cmd.drawsForward = true) (p : Vec3 α) (r : Rotation α) :
      Effect s m cmd ⟨{ m.turtle with position := p, rotation := r }, m.saved⟩ [.lineTo p]
  | moved (p : Vec3 α) :
      Effect s m .move ⟨{ m.turtle with position := p }, m.saved⟩ [.moveTo p]
  | returned (p : Vec3 α) :
      Effect s m .roundTrip m [.lineTo p, .lineTo m.turtle.position]
  | turned {cmd : Command α} (hcmd : cmd.turns = true) (r : Rotation α) (sign : α) :
      Effect s m cmd ⟨{ m.turtle with rotation := r, turnSign := sign }, m.saved⟩ []
  | rescaled {cmd : Command α} (hcmd : cmd.rescales = true) (a : α) :
      Effect s m cmd ⟨{ m.turtle with stepLength := a }, m.saved⟩ [.setScale (a / s.unit)]
  | recolored :
      Effect s m .colorToggle
        ⟨{ m.turtle with color := (m.turtle.color + 1) % s.palette }, m.saved⟩
        [.setColor ((m.turtle.color + 1) % s.palette)]
  | pushed (h : m.saved.size < s.maxStackDepth) :
      Effect s m .push ⟨m.turtle, m.saved.push m.turtle⟩ []
  | popped {t : Turtle α} (h : m.saved.back? = some t) :
      Effect s m .pop ⟨t, m.saved.pop⟩ (restoring s m.turtle t)

/-- A step has the effect of its command. -/
theorem effect_of_step {s : Settings α} {m m' : Machine α} {cmd : Command α}
    {ps : List (Primitive α)} (h : m.step s cmd = .ok (m', ps)) : Effect s m cmd m' ps := by
  cases cmd with
  | draw | drawScaled | lift _ => cases h; exact .drawn rfl _ m.turtle.rotation
  | drawFromStart => cases h; exact .drawn rfl _ s.startRotation
  | move => cases h; exact .moved _
  | roundTrip => cases h; exact .returned _
  | yaw _ | yawSecondary _ | pitch _ | roll _ => cases h; exact .turned rfl _ m.turtle.turnSign
  | reverseTurns => cases h; exact .turned rfl m.turtle.rotation _
  | ignore => cases h; exact .turned rfl m.turtle.rotation m.turtle.turnSign
  | scale | stepDelta _ => cases h; exact .rescaled rfl _
  | shrink =>
    rw [step] at h
    split at h
    · cases h
    · cases h; exact .rescaled rfl _
  | colorToggle => cases h; exact .recolored
  | push =>
    rw [step] at h
    split at h
    · cases h
    · next hlt => cases h; exact .pushed (Nat.lt_of_not_le hlt)
  | pop =>
    rw [step] at h
    split at h
    · cases h
    · next t ht => cases h; exact .popped ht

/-- The command cannot be performed with `depth` turtles on the stack. -/
def Offends (s : Settings α) (depth : Int) : Command α → Prop
  | .pop => depth = 0
  | .push => (s.maxStackDepth : Int) ≤ depth
  | .shrink => (s.coefficient == 0) = true
  | _ => False

instance (s : Settings α) (depth : Int) (cmd : Command α) : Decidable (Offends s depth cmd) :=
  match cmd with
  | .pop => inferInstanceAs (Decidable (depth = 0))
  | .push => inferInstanceAs (Decidable ((s.maxStackDepth : Int) ≤ depth))
  | .shrink => inferInstanceAs (Decidable ((s.coefficient == 0) = true))
  | .draw | .drawScaled | .move | .drawFromStart | .lift _ | .roundTrip | .yaw _ | .yawSecondary _
  | .pitch _ | .roll _ | .reverseTurns | .scale | .stepDelta _ | .colorToggle | .ignore =>
    inferInstanceAs (Decidable False)

/-- The fault of a command that cannot be performed with `depth` turtles on the stack. -/
def faultOf (depth : Nat) : Command α → StepFault
  | .pop => .emptyStack
  | .push => .fullStack depth
  | _ => .zeroCoefficient

/-- A step fails exactly on the commands that cannot be performed, each with its own fault. -/
theorem step_eq_error_iff {s : Settings α} {m : Machine α} {cmd : Command α} {fault : StepFault} :
    m.step s cmd = .error fault ↔
      Offends s m.saved.size cmd ∧ fault = faultOf m.saved.size cmd := by
  -- Three commands can fail, each for one reason; all others are performed whatever the machine is.
  cases cmd with
  | pop =>
    rw [step, Offends, faultOf]
    cases hback : m.saved.back? with
    | none =>
      have hempty : m.saved = #[] := Array.back?_eq_none_iff.1 hback
      simp [hempty, eq_comm]
    | some t =>
      have hne : m.saved ≠ #[] := fun hempty => by simp [hempty] at hback
      simp [hne]
  | push =>
    rw [step, Offends, faultOf, Int.ofNat_le]
    by_cases hle : s.maxStackDepth ≤ m.saved.size
    · simp [hle, eq_comm]
    · simp [hle]
  | shrink =>
    rw [step, Offends]
    by_cases hzero : (s.coefficient == 0) = true
    · simp [hzero, faultOf, eq_comm]
    · simp [hzero]
  | _ => simp [step, Offends]

/-- A step succeeds exactly on the commands that can be performed. -/
theorem exists_step_iff {s : Settings α} {m : Machine α} {cmd : Command α} :
    (∃ m' ps, m.step s cmd = .ok (m', ps)) ↔ ¬ Offends s m.saved.size cmd := by
  constructor
  · rintro ⟨m', ps, h⟩ hoff
    have herr := (step_eq_error_iff (m := m)).2 ⟨hoff, rfl⟩
    rw [h] at herr
    cases herr
  · intro hoff
    cases hstep : m.step s cmd with
    | ok r => exact ⟨r.1, r.2, rfl⟩
    | error fault => exact absurd (step_eq_error_iff.1 hstep).1 hoff

/-! ## Runs -/

/-- Performs the commands of a word one after the other and collects what they emit. -/
def run (table : SymbolTable α) (s : Settings α) :
    Machine α → Word → Except StepFault (Machine α × List (Primitive α))
  | m, [] => .ok (m, [])
  | m, c :: w => do
      let first ← m.step s (table.command c)
      let rest ← run table s first.1 w
      return (rest.1, first.2 ++ rest.2)

variable {table : SymbolTable α} {s : Settings α}

/-- A run along the empty word changes nothing and emits nothing. -/
theorem run_nil_eq_ok_iff {m m' : Machine α} {ps : List (Primitive α)} :
    m.run table s [] = .ok (m', ps) ↔ m' = m ∧ ps = [] := by
  simp [run, eq_comm]

/-- A run is a step and the run along the rest of the word. -/
theorem run_cons_eq_ok_iff {m m' : Machine α} {c : Symbol} {w : Word} {rs : List (Primitive α)} :
    m.run table s (c :: w) = .ok (m', rs) ↔
      ∃ m₁ ps qs, m.step s (table.command c) = .ok (m₁, ps) ∧ m₁.run table s w = .ok (m', qs) ∧
        rs = ps ++ qs := by
  rw [run]
  constructor
  · intro h
    cases hstep : m.step s (table.command c) with
    | error fault => rw [hstep] at h; cases h
    | ok first =>
      rw [hstep] at h
      cases hrun : first.1.run table s w with
      | error fault => simp [bind, Except.bind, hrun] at h
      | ok rest =>
        simp only [bind, Except.bind, hrun, pure, Except.pure, Except.ok.injEq,
          Prod.mk.injEq] at h
        exact ⟨first.1, first.2, rest.2, rfl, by rw [hrun, ← h.1], h.2.symm⟩
  · rintro ⟨m₁, ps, qs, hstep, hrun, rfl⟩
    simp [bind, Except.bind, hstep, hrun, pure, Except.pure]

/-- A run along two parts is a run along the first and, from where it ends, one along the second. -/
theorem run_append_eq_ok_iff {m m' : Machine α} {u v : Word} {rs : List (Primitive α)} :
    m.run table s (u ++ v) = .ok (m', rs) ↔
      ∃ m₁ ps qs, m.run table s u = .ok (m₁, ps) ∧ m₁.run table s v = .ok (m', qs) ∧
        rs = ps ++ qs := by
  induction u generalizing m rs with
  | nil =>
    constructor
    · intro hrun
      exact ⟨m, [], rs, rfl, hrun, rfl⟩
    · rintro ⟨m₁, ps, qs, hnil, hrun, rfl⟩
      obtain ⟨rfl, rfl⟩ := run_nil_eq_ok_iff.1 hnil
      exact hrun
  | cons c u ih =>
    rw [List.cons_append, run_cons_eq_ok_iff]
    constructor
    · rintro ⟨m₁, ps, _, hstep, hrun, rfl⟩
      obtain ⟨m₂, qs, qs', hu, hv, rfl⟩ := ih.1 hrun
      exact ⟨m₂, ps ++ qs, qs', run_cons_eq_ok_iff.2 ⟨m₁, ps, qs, hstep, hu, rfl⟩, hv,
        (List.append_assoc _ _ _).symm⟩
    · rintro ⟨m₂, _, qs', hcu, hv, rfl⟩
      obtain ⟨m₁, ps, qs, hstep, hu, rfl⟩ := run_cons_eq_ok_iff.1 hcu
      exact ⟨m₁, ps, qs ++ qs', hstep, ih.2 ⟨m₂, qs, qs', hu, hv, rfl⟩,
        List.append_assoc _ _ _⟩

/-- What every effect preserves of a machine and of the primitives emitted so far, every run
preserves. -/
theorem run_preserves {P : Machine α → List (Primitive α) → Prop}
    (hstep : ∀ {m m' : Machine α} {cmd : Command α} {before ps : List (Primitive α)},
      P m before → Effect s m cmd m' ps → P m' (before ++ ps))
    {m m' : Machine α} {w : Word} {before ps : List (Primitive α)} (hm : P m before)
    (h : m.run table s w = .ok (m', ps)) : P m' (before ++ ps) := by
  induction w generalizing m before ps with
  | nil =>
    obtain ⟨rfl, rfl⟩ := run_nil_eq_ok_iff.1 h
    rw [List.append_nil]
    exact hm
  | cons c w ih =>
    obtain ⟨m₁, ps, qs, hc, hw, rfl⟩ := run_cons_eq_ok_iff.1 h
    -- What was emitted before the rest is `before` and what the first command emits.
    rw [← List.append_assoc]
    exact ih (hstep hm (effect_of_step hc)) hw

end Machine

/-! ## Walks are runs -/

namespace Walk

variable {α : Type} [Scalar α] {table : SymbolTable α} {s : Settings α}

/-- A walk passes a symbol exactly if its machine can take the step, and adds what that emits. -/
theorem step_eq_ok_iff {index : Nat} {walk walk' : Walk α} {c : Symbol} :
    walk.step table s index c = .ok walk' ↔
      ∃ ps, walk.machine.step s (table.command c) = .ok (walk'.machine, ps) ∧
        walk'.path = walk.path.append ps := by
  rw [step]
  constructor
  · intro h
    split at h
    · next m ps hm => cases h; exact ⟨ps, hm, rfl⟩
    · cases h
  · rintro ⟨ps, hm, hpath⟩
    simp only [hm, ← hpath]

/-- A walk succeeds exactly if the run of its machine does, and adds to its path what the run
emits. -/
theorem along_eq_ok_iff {index : Nat} {walk walk' : Walk α} {w : Word} :
    along table s index walk w = .ok walk' ↔
      ∃ ps, walk.machine.run table s w = .ok (walk'.machine, ps) ∧
        walk'.path.toList = walk.path.toList ++ ps := by
  induction w generalizing index walk with
  | nil =>
    simp only [along_nil, Machine.run_nil_eq_ok_iff, Except.ok.injEq]
    constructor
    · rintro rfl
      exact ⟨[], ⟨rfl, rfl⟩, (List.append_nil _).symm⟩
    · rintro ⟨_, ⟨hmachine, rfl⟩, hpath⟩
      rw [List.append_nil] at hpath
      -- Walks are equal if their machines and the lists of their primitives are.
      cases walk; cases walk'
      rw [Walk.mk.injEq]
      exact ⟨hmachine.symm, (Drawing.ext_toList hpath).symm⟩
  | cons c w ih =>
    rw [along_cons]
    constructor
    · intro h
      cases hstep : walk.step table s index c with
      | error e => rw [hstep] at h; cases h
      | ok walk₁ =>
        rw [hstep] at h
        obtain ⟨ps, hc, hpath⟩ := step_eq_ok_iff.1 hstep
        obtain ⟨qs, hw, hpath'⟩ := ih.1 h
        refine ⟨ps ++ qs, Machine.run_cons_eq_ok_iff.2 ⟨_, ps, qs, hc, hw, rfl⟩, ?_⟩
        rw [hpath', hpath, Drawing.toList_append, List.append_assoc]
    · rintro ⟨_, hrun, hpath⟩
      obtain ⟨m₁, ps, qs, hc, hw, rfl⟩ := Machine.run_cons_eq_ok_iff.1 hrun
      have hstep : walk.step table s index c = .ok ⟨m₁, walk.path.append ps⟩ :=
        step_eq_ok_iff.2 ⟨ps, hc, rfl⟩
      rw [hstep]
      refine ih.2 ⟨qs, hw, ?_⟩
      rw [hpath, Drawing.toList_append, List.append_assoc]

end Walk

namespace Interpreter

variable {α : Type} [Scalar α]

/-- The constants of the runs of an interpreter. -/
abbrev settings (interpreter : Interpreter α) (motion : TurtleMotion α) : Settings α :=
  Settings.of interpreter.options motion

/-- The run of the machine that a word starts. -/
abbrev runFromStart (interpreter : Interpreter α) (w : Word) (motion : TurtleMotion α) :
    Except StepFault (Machine α × List (Primitive α)) :=
  (Machine.start interpreter.options motion).run interpreter.table (interpreter.settings motion) w

/-- A walk is the run of a fresh machine, and its path is the move to the origin and what the run
emits. -/
theorem walk_eq_ok_iff {interpreter : Interpreter α} {motion : TurtleMotion α} {w : Word}
    {walk : Walk α} :
    interpreter.walk w motion = .ok walk ↔
      ∃ ps, interpreter.runFromStart w motion = .ok (walk.machine, ps) ∧
        walk.path.toList = .moveTo Vec3.origin :: ps := by
  rw [Interpreter.walk, Walk.along_eq_ok_iff]
  rfl

/-- A word can be walked to its end exactly if the machine can be run to its end. -/
theorem exists_walk_iff_exists_run {interpreter : Interpreter α} {motion : TurtleMotion α}
    {w : Word} :
    (∃ walk, interpreter.walk w motion = .ok walk) ↔
      ∃ m ps, interpreter.runFromStart w motion = .ok (m, ps) := by
  constructor
  · rintro ⟨walk, h⟩
    obtain ⟨ps, hrun, -⟩ := walk_eq_ok_iff.1 h
    exact ⟨walk.machine, ps, hrun⟩
  · rintro ⟨m, ps, hrun⟩
    exact ⟨⟨m, Drawing.empty.append (.moveTo Vec3.origin :: ps)⟩,
      walk_eq_ok_iff.2 ⟨ps, hrun, Drawing.toList_append _ _⟩⟩

/-- A longer word goes on from where the walk along its beginning ends. -/
theorem walk_append_eq_ok_iff {interpreter : Interpreter α} {motion : TurtleMotion α} {u v : Word}
    {next : Walk α} :
    interpreter.walk (u ++ v) motion = .ok next ↔
      ∃ walk ps, interpreter.walk u motion = .ok walk ∧
        walk.machine.run interpreter.table (interpreter.settings motion) v =
          .ok (next.machine, ps) ∧
        next.path.toList = walk.path.toList ++ ps := by
  have hsplit : interpreter.walk (u ++ v) motion = (interpreter.walk u motion).bind fun walk =>
      Walk.along interpreter.table (interpreter.settings motion) (0 + u.length) walk v :=
    Walk.along_append _ _ _ _ _ _
  rw [hsplit]
  constructor
  · intro h
    cases hu : interpreter.walk u motion with
    | error e => rw [hu] at h; cases h
    | ok walk =>
      rw [hu] at h
      obtain ⟨ps, hrun, hpath⟩ := Walk.along_eq_ok_iff.1 h
      exact ⟨walk, ps, rfl, hrun, hpath⟩
  · rintro ⟨walk, ps, hu, hrun, hpath⟩
    rw [hu]
    exact Walk.along_eq_ok_iff.2 ⟨ps, hrun, hpath⟩

/-- The path of a word is the path of the walk along it. -/
theorem interpret_eq_ok_iff {interpreter : Interpreter α} {motion : TurtleMotion α} {w : Word}
    {path : Drawing α} :
    interpreter.interpret w motion = .ok path ↔
      ∃ machine, interpreter.walk w motion = .ok ⟨machine, path⟩ := by
  rw [interpret]
  constructor
  · intro h
    cases hwalk : interpreter.walk w motion with
    | error e => rw [hwalk] at h; cases h
    | ok walk =>
      rw [hwalk] at h
      cases h
      exact ⟨walk.machine, rfl⟩
  · rintro ⟨machine, hwalk⟩
    rw [hwalk]
    rfl

/-- A word has a path exactly if it can be walked along. -/
theorem exists_interpret_iff {interpreter : Interpreter α} {motion : TurtleMotion α} {w : Word} :
    (∃ path, interpreter.interpret w motion = .ok path) ↔
      ∃ walk, interpreter.walk w motion = .ok walk := by
  constructor
  · rintro ⟨path, h⟩
    obtain ⟨machine, hwalk⟩ := interpret_eq_ok_iff.1 h
    exact ⟨_, hwalk⟩
  · rintro ⟨walk, hwalk⟩
    exact ⟨walk.path, interpret_eq_ok_iff.2 ⟨walk.machine, hwalk⟩⟩

end Interpreter

end TurtleCurves
