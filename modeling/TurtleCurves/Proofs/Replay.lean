import TurtleCurves.Proofs.FloatEquality
import TurtleCurves.Proofs.Machine

/-!
# Replaying a path

A `Plotter` sees the primitives of a path and nothing else: it keeps the last point, the last colour
and the last scale that it was told. The result is that after every symbol it is where the
turtle is, in the turtle's colour and at the turtle's step, so that a segment always begins for the
plotter where it begins for the turtle.

## The invariant

`InStep` relates a plotter to a turtle. It is kept by every effect of the machine
(`InStep.of_effect`), and the interesting effect is the return to a saved turtle: its scale and its
colour are announced only where they differ from those of the turtle that it replaces. The colours
are compared for identity, so an announcement that is left out would have changed nothing. The steps
are compared with `==`, which does not mean that they are the same number. The invariant therefore
allows a plotter whose step is merely `==` to the turtle's, and symmetry and transitivity of `==`
carry it through any number of returns.
-/

namespace TurtleCurves

/-- A device that carries out primitives: what it was last told of each kind. -/
structure Plotter (α : Type) where
  point? : Option (Vec3 α)
  color? : Option ColorIndex
  scale? : Option α

/-- A segment in a colour. -/
structure Segment (α : Type) where
  color : ColorIndex
  source : Vec3 α
  target : Vec3 α

namespace Plotter

variable {α : Type}

/-- A device that was told nothing yet. -/
def blank : Plotter α :=
  ⟨none, none, none⟩

/-- Carries out one primitive. -/
def step (q : Plotter α) : Primitive α → Plotter α
  | .moveTo p | .lineTo p => { q with point? := some p }
  | .setColor c => { q with color? := some c }
  | .setScale k => { q with scale? := some k }

/-- Carries out primitives in order. -/
def replay (q : Plotter α) (ps : List (Primitive α)) : Plotter α :=
  ps.foldl step q

/-- The colour of the pen, 0 if none was announced. -/
def color (q : Plotter α) : ColorIndex :=
  q.color?.getD 0

@[simp] theorem replay_nil (q : Plotter α) : q.replay [] = q := rfl

@[simp] theorem replay_cons (q : Plotter α) (p : Primitive α) (ps : List (Primitive α)) :
    q.replay (p :: ps) = (q.step p).replay ps := rfl

theorem replay_append (q : Plotter α) (ps qs : List (Primitive α)) :
    q.replay (ps ++ qs) = (q.replay ps).replay qs :=
  List.foldl_append

variable [Scalar α]

/-- Where the pen is, the origin if it was not moved yet. -/
def pen (q : Plotter α) : Vec3 α :=
  q.point?.getD Vec3.origin

/-- The segments that the plotter draws: one for each primitive that draws, from where the pen is
and in the colour that it has. -/
def segments : Plotter α → List (Primitive α) → List (Segment α)
  | _, [] => []
  | q, .lineTo p :: ps => ⟨q.color, q.pen, p⟩ :: (q.step (.lineTo p)).segments ps
  | q, p :: ps => (q.step p).segments ps

/-- The segments of the second part are drawn from where the first part has led the pen. -/
theorem segments_append (q : Plotter α) (ps qs : List (Primitive α)) :
    q.segments (ps ++ qs) = q.segments ps ++ (q.replay ps).segments qs := by
  induction ps generalizing q with
  | nil => rfl
  | cons p ps ih =>
    cases p with
    | lineTo v => rw [List.cons_append, segments, segments, ih, replay_cons, List.cons_append]
    | moveTo _ | setColor _ | setScale _ => exact ih _

end Plotter

/-- The segments of a path, drawn by a plotter that was told nothing before. -/
def Drawing.segments {α : Type} [Scalar α] (path : Drawing α) : List (Segment α) :=
  Plotter.blank.segments path.toList

/-! ## The plotter and the turtle -/

variable {α : Type} [Scalar α]

/-- The plotter's scale was announced for the step `a` or for one that compares equal to it; if none
was announced, the unit stands for the step. -/
def AtStep (unit a : α) (scale? : Option α) : Prop :=
  ∃ b, (b = a ∨ (b == a) = true) ∧ (scale? = some (b / unit) ∨ scale? = none ∧ b = unit)

/-- The plotter is where the turtle is, in its colour and at its step. -/
structure InStep (unit : α) (q : Plotter α) (t : Turtle α) : Prop where
  point : q.point? = some t.position
  color : q.color = t.color
  scale : AtStep unit t.stepLength q.scale?

/-- Replacing a step by one that compares equal to it needs no announcement. -/
theorem AtStep.of_beq [PartialEquivBEq α] {unit a a' : α} {scale? : Option α}
    (h : AtStep unit a scale?) (ha : (a' == a) = true) : AtStep unit a' scale? := by
  obtain ⟨b, hb, hscale⟩ := h
  -- `b` was announced before `a'` replaced `a`, so the two are only comparable by way of `a`.
  have hsymm : (a == a') = true := BEq.symm ha
  refine ⟨b, Or.inr ?_, hscale⟩
  rcases hb with rfl | hb
  · exact hsymm
  · exact BEq.trans hb hsymm

/-- What is announced when a turtle takes the place of another brings the plotter in step with it.
-/
theorem InStep.restoring [PartialEquivBEq α] {s : Settings α} {q : Plotter α}
    {current saved : Turtle α} (h : InStep s.unit q current) :
    InStep s.unit (q.replay (Machine.restoring s current saved)) saved := by
  rw [Machine.restoring, Plotter.replay_cons, Plotter.replay_append]
  -- The scale first: the plotter is then in step with a turtle that still has the old colour.
  have hscale : InStep s.unit
      ((q.step (.moveTo saved.position)).replay
        (if saved.stepLength == current.stepLength then [] else [Machine.scaleMark s saved]))
      { current with position := saved.position, stepLength := saved.stepLength } := by
    split
    · next hbeq => exact ⟨rfl, h.color, h.scale.of_beq hbeq⟩
    · exact ⟨rfl, h.color, saved.stepLength, Or.inl rfl, Or.inl rfl⟩
  -- The colour is left out only where it is the same, so the plotter has it already.
  by_cases hc : saved.color = current.color
  · rw [if_pos hc]
    exact ⟨hscale.point, hscale.color.trans hc.symm, hscale.scale⟩
  · rw [if_neg hc]
    exact ⟨hscale.point, rfl, hscale.scale⟩

/-- Whatever a command does to the turtle, the plotter follows. -/
theorem InStep.of_effect [PartialEquivBEq α] {s : Settings α} {m m' : Machine α} {cmd : Command α}
    {ps : List (Primitive α)} {q : Plotter α} (h : InStep s.unit q m.turtle)
    (heffect : Machine.Effect s m cmd m' ps) : InStep s.unit (q.replay ps) m'.turtle := by
  cases heffect with
  | drawn | moved | returned => exact ⟨rfl, h.color, h.scale⟩
  | turned => exact ⟨h.point, h.color, h.scale⟩
  | rescaled _ a => exact ⟨h.point, h.color, ⟨a, Or.inl rfl, Or.inl rfl⟩⟩
  | recolored => exact ⟨h.point, rfl, h.scale⟩
  | pushed => exact h
  | popped => exact h.restoring

/-- The plotter follows the turtle along a run. -/
theorem InStep.of_run [PartialEquivBEq α] {table : SymbolTable α} {s : Settings α}
    {m m' : Machine α} {w : Word} {ps : List (Primitive α)} {q : Plotter α}
    (h : InStep s.unit q m.turtle) (hrun : m.run table s w = .ok (m', ps)) :
    InStep s.unit (q.replay ps) m'.turtle := by
  -- The invariant of the run is that of the plotter after all that was emitted so far.
  have hstart : InStep s.unit (q.replay []) m.turtle := h
  refine Machine.run_preserves (P := fun m ps => InStep s.unit (q.replay ps) m.turtle) ?_ hstart
    hrun
  intro m m' cmd before ps hm heffect
  rw [Plotter.replay_append]
  exact hm.of_effect heffect

/-- After the move with which every path begins, the plotter is in step with a fresh turtle. -/
theorem InStep.start (options : DrawingOptions α) (motion : TurtleMotion α) :
    InStep options.unitLength (Plotter.blank.step (.moveTo Vec3.origin))
      (Machine.start options motion).turtle :=
  ⟨rfl, rfl, options.unitLength, Or.inl rfl, Or.inr ⟨rfl, rfl⟩⟩

/-- After a walk a plotter that replays its path is in step with the turtle. -/
theorem InStep.of_walk [PartialEquivBEq α] {interpreter : Interpreter α} {motion : TurtleMotion α}
    {w : Word} {walk : Walk α} (h : interpreter.walk w motion = .ok walk) :
    InStep interpreter.options.unitLength (Plotter.blank.replay walk.path.toList)
      walk.machine.turtle := by
  obtain ⟨ps, hrun, hpath⟩ := Interpreter.walk_eq_ok_iff.1 h
  rw [hpath, Plotter.replay_cons]
  exact (InStep.start interpreter.options motion).of_run hrun

/-! ## Where segments begin -/

/-- A command that draws is never refused, and the first thing that it emits is a segment. -/
theorem Machine.step_of_draws {s : Settings α} {m : Machine α} {cmd : Command α}
    (h : cmd.draws = true) : ∃ m' p ps, m.step s cmd = .ok (m', .lineTo p :: ps) := by
  cases cmd with
  | draw | drawScaled | drawFromStart | lift _ | roundTrip => exact ⟨_, _, _, rfl⟩
  | _ => exact absurd h (by simp [Command.draws, Command.drawsForward])

/-- After every symbol that is passed, a plotter that replays the path up to there is at the
turtle's position and in the turtle's colour, and the last scale that it was told belongs to the
turtle's step or to one that compares equal to it. So the first segment of the next symbol that
draws begins for the plotter at the turtle's position and in the turtle's colour. The word may be
any beginning of a longer one, at whose later symbols the walk may fail. -/
theorem replay_walk [PartialEquivBEq α] (interpreter : Interpreter α) (motion : TurtleMotion α)
    {w : Word} {walk : Walk α} (h : interpreter.walk w motion = .ok walk) :
    (Plotter.blank.replay walk.path.toList).point? = some walk.machine.turtle.position ∧
      (Plotter.blank.replay walk.path.toList).color?.getD 0 = walk.machine.turtle.color ∧
      (∃ a, (a = walk.machine.turtle.stepLength ∨
          (a == walk.machine.turtle.stepLength) = true) ∧
        ((Plotter.blank.replay walk.path.toList).scale? =
            some (a / interpreter.options.unitLength) ∨
          (Plotter.blank.replay walk.path.toList).scale? = none ∧
            a = interpreter.options.unitLength)) ∧
      ∀ c, (interpreter.table.command c).draws = true →
        ∃ (next : Walk α) (target : Vec3 α) (rest : List (Segment α)),
          interpreter.walk (w ++ [c]) motion = .ok next ∧
          next.path.segments = walk.path.segments ++
            ⟨walk.machine.turtle.color, walk.machine.turtle.position, target⟩ :: rest := by
  have hstep := InStep.of_walk h
  refine ⟨hstep.point, hstep.color, hstep.scale, fun c hc => ?_⟩
  obtain ⟨m', target, qs, hdraw⟩ :=
    Machine.step_of_draws (s := interpreter.settings motion) (m := walk.machine) hc
  have hrun : walk.machine.run interpreter.table (interpreter.settings motion) [c] =
      .ok (m', .lineTo target :: qs) :=
    Machine.run_cons_eq_ok_iff.2 ⟨m', _, [], hdraw, rfl, (List.append_nil _).symm⟩
  have hpen : (Plotter.blank.replay walk.path.toList).pen = walk.machine.turtle.position := by
    rw [Plotter.pen, hstep.point, Option.getD_some]
  -- The next symbol is a walk of one more step, whose first primitive is the segment.
  refine ⟨⟨m', walk.path.append (.lineTo target :: qs)⟩, target,
    ((Plotter.blank.replay walk.path.toList).step (.lineTo target)).segments qs,
    Interpreter.walk_append_eq_ok_iff.2 ⟨walk, _, h, hrun, Drawing.toList_append _ _⟩, ?_⟩
  rw [Drawing.segments, Drawing.toList_append, Plotter.segments_append, Plotter.segments, hpen,
    hstep.color, Drawing.segments]

/-- A walk that changes step and colour inside a branch and returns. -/
theorem replay_walk_branch :
    ∃ walk : Walk Float,
      (Interpreter.ofOptions DrawingOptions.standard).walk "F[.*+F]".toList ⟨90, 0, 0.5⟩ =
          .ok walk ∧
        (Plotter.blank.replay walk.path.toList).point? = some walk.machine.turtle.position ∧
        (Plotter.blank.replay walk.path.toList).color?.getD 0 = walk.machine.turtle.color := by
  obtain ⟨walk, h⟩ : ∃ walk : Walk Float,
      (Interpreter.ofOptions DrawingOptions.standard).walk "F[.*+F]".toList ⟨90, 0, 0.5⟩ =
        .ok walk := ⟨_, rfl⟩
  have hreplay := replay_walk _ _ h
  exact ⟨walk, h, hreplay.1, hreplay.2.1⟩

end TurtleCurves
