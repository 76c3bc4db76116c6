import TurtleCurves.Proofs.Rendering

/-!
# Counting primitives

How many primitives of each sort a path has can be told from its word, by counting the commands of
each kind. Segments and moves are counted exactly. A change of colour or of scale is announced by
the command that makes it, and perhaps again by a return, so for these there is a least and a
greatest number.

## Shape of the proof

`Accounts` relates primitives to counts of commands by equations and inequalities in which both
sides are sums. It holds of nothing, it is additive (`Accounts.append`), and it holds of a single
effect of the machine (`Effect.accounts`), where the commands are distinguished for the only time.
So it holds of every run. In the standard alphabet only two symbols draw, and a drawing has as many
segments as its last generation has of these.
-/

namespace TurtleCurves

variable {α : Type}

/-! ## Kinds of primitives -/

/-- The number of symbols of a word that stand for commands of the given kind. -/
def SymbolTable.count (table : SymbolTable α) (kind : Command Unit) (w : Word) : Nat :=
  w.countP fun c => (table.command c).kind = kind

namespace Primitive

/-- The primitive moves the pen without drawing. -/
def isMove : Primitive α → Bool
  | moveTo _ => true
  | _ => false

/-- The primitive announces a colour. -/
def isColor : Primitive α → Bool
  | setColor _ => true
  | _ => false

/-- The primitive announces a scale. -/
def isScale : Primitive α → Bool
  | setScale _ => true
  | _ => false

end Primitive

/-- The first symbol counts for its kind. -/
theorem SymbolTable.count_cons (table : SymbolTable α) (kind : Command Unit) (c : Symbol)
    (w : Word) :
    table.count kind (c :: w) =
      (if (table.command c).kind = kind then 1 else 0) + table.count kind w := by
  rw [count, List.countP_cons, Nat.add_comm]
  simp only [decide_eq_true_eq]
  rfl

/-! ## Accounts -/

/-- The primitives are those of as many commands of each kind as `n` says. -/
structure Accounts (ps : List (Primitive α)) (n : Command Unit → Nat) : Prop where
  lines : ps.countP Primitive.isLine =
    n .draw + n .drawScaled + n .drawFromStart + n (.lift ()) + 2 * n .roundTrip
  moves : ps.countP Primitive.isMove = n .move + n .pop
  le_colors : n .colorToggle ≤ ps.countP Primitive.isColor
  colors_le : ps.countP Primitive.isColor ≤ n .colorToggle + n .pop
  le_scales : n .scale + n .shrink + n (.stepDelta ()) ≤ ps.countP Primitive.isScale
  scales_le : ps.countP Primitive.isScale ≤ n .scale + n .shrink + n (.stepDelta ()) + n .pop

namespace Accounts

/-- No primitives are those of no commands. -/
theorem nil : Accounts ([] : List (Primitive α)) fun _ => 0 :=
  ⟨rfl, rfl, Nat.le_refl _, Nat.le_refl _, Nat.le_refl _, Nat.le_refl _⟩

/-- The accounts of two parts add up. -/
theorem append {ps qs : List (Primitive α)} {m n : Command Unit → Nat} (h : Accounts ps m)
    (h' : Accounts qs n) : Accounts (ps ++ qs) fun kind => m kind + n kind := by
  obtain ⟨hlines, hmoves, hlecolors, hcolorsle, hlescales, hscalesle⟩ := h
  obtain ⟨hlines', hmoves', hlecolors', hcolorsle', hlescales', hscalesle'⟩ := h'
  constructor <;> rw [List.countP_append] <;> omega

end Accounts

section Scalar

variable [Scalar α]

namespace Machine

attribute [local simp] Command.kind Primitive.isLine Primitive.isMove Primitive.isColor
  Primitive.isScale List.countP_cons

/-- A return announces the move and at most one colour and one scale. -/
theorem accounts_restoring (s : Settings α) (current saved : Turtle α) :
    Accounts (restoring s current saved) fun kind =>
      if (Command.pop : Command α).kind = kind then 1 else 0 := by
  rw [restoring]
  split <;> split <;> constructor <;> simp [scaleMark]

/-- What a single command emits. -/
theorem Effect.accounts {s : Settings α} {m m' : Machine α} {cmd : Command α}
    {ps : List (Primitive α)} (h : Effect s m cmd m' ps) :
    Accounts ps fun kind => if cmd.kind = kind then 1 else 0 := by
  -- The only place where the commands are told apart.
  cases h with
  | drawn hcmd =>
    cases cmd with
    | draw | drawScaled | drawFromStart | lift _ =>
      constructor <;> simp
    | _ => cases hcmd
  | turned hcmd =>
    cases cmd with
    | yaw _ | yawSecondary _ | pitch _ | roll _ | reverseTurns | ignore =>
      constructor <;> simp
    | _ => cases hcmd
  | rescaled hcmd =>
    cases cmd with
    | scale | shrink | stepDelta _ =>
      constructor <;> simp
    | _ => cases hcmd
  | moved | returned | recolored | pushed =>
    constructor <;> simp
  | popped => exact accounts_restoring s _ _

/-- What a run emits is accounted for by the commands of its word. -/
theorem accounts_of_run {table : SymbolTable α} {s : Settings α} {m m' : Machine α} {w : Word}
    {ps : List (Primitive α)} (h : m.run table s w = .ok (m', ps)) :
    Accounts ps fun kind => table.count kind w := by
  induction w generalizing m ps with
  | nil =>
    obtain ⟨-, rfl⟩ := run_nil_eq_ok_iff.1 h
    exact Accounts.nil
  | cons c w ih =>
    obtain ⟨m₁, ps, qs, hc, hw, rfl⟩ := run_cons_eq_ok_iff.1 h
    simp only [SymbolTable.count_cons]
    exact (effect_of_step hc).accounts.append (ih hw)

end Machine

/-- The path of a word is the move to the origin and what its commands account for. -/
theorem Interpreter.accounts_of_interpret {interpreter : Interpreter α} {motion : TurtleMotion α}
    {w : Word} {path : Drawing α} (h : interpreter.interpret w motion = .ok path) :
    ∃ ps, path.toList = .moveTo Vec3.origin :: ps ∧
      Accounts ps fun kind => interpreter.table.count kind w := by
  obtain ⟨machine, hwalk⟩ := interpret_eq_ok_iff.1 h
  obtain ⟨ps, hrun, hpath⟩ := walk_eq_ok_iff.1 hwalk
  exact ⟨ps, hpath, Machine.accounts_of_run hrun⟩

/-- The move to the origin draws nothing, so all segments come from commands. -/
theorem Interpreter.lineCount_of_interpret {interpreter : Interpreter α} {motion : TurtleMotion α}
    {w : Word} {path : Drawing α} (h : interpreter.interpret w motion = .ok path) :
    path.lineCount = interpreter.table.count .draw w + interpreter.table.count .drawScaled w +
      interpreter.table.count .drawFromStart w + interpreter.table.count (.lift ()) w +
      2 * interpreter.table.count .roundTrip w := by
  obtain ⟨ps, hpath, haccounts⟩ := accounts_of_interpret h
  rw [Drawing.lineCount, hpath, ← haccounts.lines]
  rfl

/-! ## The standard alphabet -/

namespace Alphabet

/-- The standard alphabet, symbol by symbol. -/
theorem command_standard (c : Symbol) :
    (standard.table : SymbolTable α).command c =
      if '.' = c then .colorToggle else if '*' = c then .scale
      else if ']' = c then .pop else if '[' = c then .push
      else if '-' = c then .yaw (-1) else if '+' = c then .yaw 1
      else if 'G' = c then .draw else if 'F' = c then .draw else .ignore := by
  simp only [table, SymbolTable.addAlphabet, bindings, standardBindings, SymbolTable.setAll,
    List.foldl_cons, List.foldl_nil, SymbolTable.command_set, SymbolTable.command_empty]

/-- Two symbols of the standard alphabet draw a step, and no other draws at all. -/
theorem command_standard_cases (c : Symbol) :
    (c = 'F' ∨ c = 'G') ∧ (standard.table : SymbolTable α).command c = .draw ∨
      c ≠ 'F' ∧ c ≠ 'G' ∧ ((standard.table : SymbolTable α).command c).draws = false := by
  by_cases hF : c = 'F'
  · subst hF
    exact Or.inl ⟨Or.inl rfl, command_standard 'F'⟩
  by_cases hG : c = 'G'
  · subst hG
    exact Or.inl ⟨Or.inr rfl, command_standard 'G'⟩
  · refine Or.inr ⟨hF, hG, ?_⟩
    rw [command_standard, if_neg (Ne.symm hG), if_neg (Ne.symm hF)]
    split_ifs <;> rfl

end Alphabet

/-- The commands of a word in the standard alphabet that draw, each as often as it draws. -/
theorem SymbolTable.lines_standard (w : Word) :
    let table : SymbolTable α := Alphabet.standard.table
    table.count .draw w + table.count .drawScaled w + table.count .drawFromStart w +
        table.count (.lift ()) w + 2 * table.count .roundTrip w =
      w.count 'F' + w.count 'G' := by
  intro table
  induction w with
  | nil => rfl
  | cons c w ih =>
    simp only [count_cons, List.count_cons]
    rcases Alphabet.command_standard_cases (α := α) c with ⟨rfl | rfl, hcmd⟩ | ⟨hF, hG, hcmd⟩
    · have hkind : (table.command 'F').kind = .draw := congrArg Command.kind hcmd
      simp only [hkind, reduceIte, reduceCtorEq, BEq.rfl, Char.reduceBEq, Bool.false_eq_true]
      omega
    · have hkind : (table.command 'G').kind = .draw := congrArg Command.kind hcmd
      simp only [hkind, reduceIte, reduceCtorEq, BEq.rfl, Char.reduceBEq, Bool.false_eq_true]
      omega
    · -- Any other symbol draws nothing, so its command is of none of the kinds that are counted.
      have hkind : ∀ kind : Command Unit, kind.draws = true → (table.command c).kind ≠ kind := by
        rintro _ hdraws rfl
        rw [Command.draws_kind, hcmd] at hdraws
        cases hdraws
      rw [if_neg (hkind .draw rfl), if_neg (hkind .drawScaled rfl),
        if_neg (hkind .drawFromStart rfl), if_neg (hkind (.lift ()) rfl),
        if_neg (hkind .roundTrip rfl)]
      simp only [beq_iff_eq, hF, hG, reduceIte]
      omega

/-! ## The counts of a path -/

/-- The primitives of a path are counted by the commands of its word. The path begins with the move
to the origin; it has one segment for each command that draws forward and two for each round trip, a
move for each move and each return, a colour for each change of colour and perhaps for some returns,
and a scale for each change of the step and perhaps for some returns. So a grammar that is rendered
in the standard alphabet has as many segments as its last generation has symbols `F` and `G`. -/
theorem primitives_counted :
    (∀ {α : Type} [Scalar α] (interpreter : Interpreter α) (motion : TurtleMotion α) (w : Word)
      (path : Drawing α), interpreter.interpret w motion = .ok path →
      path.toList.head? = some (.moveTo Vec3.origin) ∧
      path.lineCount = interpreter.table.count .draw w + interpreter.table.count .drawScaled w +
        interpreter.table.count .drawFromStart w + interpreter.table.count (.lift ()) w +
        2 * interpreter.table.count .roundTrip w ∧
      path.toList.countP Primitive.isMove =
        1 + interpreter.table.count .move w + interpreter.table.count .pop w ∧
      (interpreter.table.count .colorToggle w ≤ path.toList.countP Primitive.isColor ∧
        path.toList.countP Primitive.isColor ≤
          interpreter.table.count .colorToggle w + interpreter.table.count .pop w) ∧
      (interpreter.table.count .scale w + interpreter.table.count .shrink w +
          interpreter.table.count (.stepDelta ()) w ≤ path.toList.countP Primitive.isScale ∧
        path.toList.countP Primitive.isScale ≤
          interpreter.table.count .scale w + interpreter.table.count .shrink w +
            interpreter.table.count (.stepDelta ()) w + interpreter.table.count .pop w)) ∧
    ∀ (g : Grammar) (options : DrawingOptions Float) (path : Drawing Float),
      options.alphabet = .standard → (g.render options).outcome = .ok path →
      path.lineCount =
        (g.generation g.iterationCount).count 'F' + (g.generation g.iterationCount).count 'G' := by
  constructor
  · intro α _ interpreter motion w path h
    obtain ⟨ps, hpath, haccounts⟩ := Interpreter.accounts_of_interpret h
    -- The move to the origin is the one primitive for which no command accounts.
    have hmoves : path.toList.countP Primitive.isMove = 1 + ps.countP Primitive.isMove := by
      rw [hpath, List.countP_cons_of_pos rfl, Nat.add_comm]
    have hcolors : path.toList.countP Primitive.isColor = ps.countP Primitive.isColor := by
      rw [hpath, List.countP_cons_of_neg Bool.false_ne_true]
    have hscales : path.toList.countP Primitive.isScale = ps.countP Primitive.isScale := by
      rw [hpath, List.countP_cons_of_neg Bool.false_ne_true]
    refine ⟨by rw [hpath, List.head?_cons], Interpreter.lineCount_of_interpret h, ?_, ?_, ?_⟩
    · rw [hmoves, haccounts.moves, Nat.add_assoc]
    · rw [hcolors]
      exact ⟨haccounts.le_colors, haccounts.colors_le⟩
    · rw [hscales]
      exact ⟨haccounts.le_scales, haccounts.scales_le⟩
  · intro g options path halphabet h
    have htable : (Interpreter.ofOptions options).table = Alphabet.standard.table := by
      rw [← halphabet]
      rfl
    rw [Interpreter.lineCount_of_interpret (Grammar.interpret_of_render h), htable]
    exact SymbolTable.lines_standard _

/-- A round trip, a branch that changes step and colour and moves inside, a lift and a division of
the step; and the second generation of a grammar whose production draws and ends with an `X`. -/
theorem primitives_counted_branch :
    (∃ path, (Interpreter.ofOptions { DrawingOptions.standard with alphabet := .classic }).interpret
        "F|[.*U]⇧/_".toList ⟨90, 0, 0.5⟩ = .ok path ∧
      path.lineCount = 5 ∧ path.toList.countP Primitive.isMove = 3) ∧
    let g : Grammar := ⟨"X".toList, RuleSet.empty.insert 'X' "F[+G.]X".toList, 2, 1, ∅, ⟨90, 0, 1⟩⟩
    ∃ path, (g.render DrawingOptions.standard).outcome = .ok path ∧ path.lineCount = 4 := by
  constructor
  · obtain ⟨path, hpath⟩ : ∃ path,
        (Interpreter.ofOptions { DrawingOptions.standard with alphabet := .classic }).interpret
          "F|[.*U]⇧/_".toList ⟨90, 0, 0.5⟩ = .ok path := ⟨_, rfl⟩
    obtain ⟨-, hlines, hmoves, -⟩ := primitives_counted.1 _ _ _ path hpath
    refine ⟨path, hpath, hlines.trans ?_, hmoves.trans ?_⟩
    · decide +kernel
    · decide +kernel
  · intro g
    have hproj : g.projectedLength DrawingOptions.standard.ceiling = .ok 13 := by decide +kernel
    have hword : g.generation g.iterationCount = "F[+G.]F[+G.]X".toList := by decide +kernel
    obtain ⟨path, hpath⟩ : ∃ path, (g.render DrawingOptions.standard).outcome = .ok path := by
      rw [g.render_outcome, hproj, hword]
      exact ⟨_, rfl⟩
    refine ⟨path, hpath, (primitives_counted.2 g _ path rfl hpath).trans ?_⟩
    rw [hword]
    decide +kernel

end Scalar

end TurtleCurves
