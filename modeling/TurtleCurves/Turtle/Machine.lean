import TurtleCurves.Turtle.Options

/-!
# The drawing machine

A `Machine` is a turtle and the turtles saved before it.  `Machine.step` performs one command: it
returns the next machine and the primitives that the command emits, or the reason why the command is
impossible.  Neither depends on what has been drawn before.
-/

namespace TurtleCurves

/-- Why a command cannot be performed. -/
inductive StepFault
  /-- A turtle is to be restored and none is saved. -/
  | emptyStack
  /-- A turtle is to be saved and the stack, of the given depth, is full. -/
  | fullStack (depth : Nat)
  /-- The step is to be divided by a coefficient that is zero. -/
  | zeroCoefficient
deriving DecidableEq, Repr

/-- The turtle and the saved turtles, the last one saved at the end. -/
structure Machine (α : Type) where
  turtle : Turtle α
  saved : Array (Turtle α)

namespace Machine

variable {α : Type} [Scalar α]

/-- The machine before the first symbol. -/
def start (options : DrawingOptions α) (motion : TurtleMotion α) : Machine α :=
  ⟨Turtle.facing motion.startingAngle options.unitLength, #[]⟩

/-- The primitive that announces the step length of a turtle. -/
def scaleMark (s : Settings α) (t : Turtle α) : Primitive α :=
  .setScale (t.stepLength / s.unit)

/-- The turtle goes to `p` with the pen down. -/
def drawTo (m : Machine α) (p : Vec3 α) : Machine α × List (Primitive α) :=
  ({ m with turtle := { m.turtle with position := p } }, [.lineTo p])

/-- The turtle goes to `p` with the pen up. -/
def jumpTo (m : Machine α) (p : Vec3 α) : Machine α × List (Primitive α) :=
  ({ m with turtle := { m.turtle with position := p } }, [.moveTo p])

/-- The turtle changes and nothing is drawn. -/
def become (m : Machine α) (t : Turtle α) : Machine α × List (Primitive α) :=
  ({ m with turtle := t }, [])

/-- The step length changes and is announced. -/
def rescale (s : Settings α) (m : Machine α) (stepLength : α) : Machine α × List (Primitive α) :=
  let t := { m.turtle with stepLength := stepLength }
  ({ m with turtle := t }, [scaleMark s t])

/-- The angle of a turn with the given payload. -/
def signed (m : Machine α) (angle factor : α) : α :=
  angle * factor * m.turtle.turnSign

/-- What is announced when `saved` takes the place of `current`: its position, and its step and its
colour where they differ. -/
def restoring (s : Settings α) (current saved : Turtle α) : List (Primitive α) :=
  .moveTo saved.position ::
    ((if saved.stepLength == current.stepLength then [] else [scaleMark s saved]) ++
      if saved.color = current.color then [] else [.setColor saved.color])

/-- Performs one command. -/
def step (s : Settings α) (m : Machine α) :
    Command α → Except StepFault (Machine α × List (Primitive α))
  | .draw => .ok (m.drawTo (m.turtle.ahead m.turtle.stepLength))
  | .drawScaled => .ok (m.drawTo (m.turtle.ahead (m.turtle.stepLength * s.coefficient)))
  | .move => .ok (m.jumpTo (m.turtle.ahead m.turtle.stepLength))
  | .drawFromStart =>
      let t := { m.turtle with rotation := s.startRotation }
      .ok ({ m with turtle := t }.drawTo (t.ahead t.stepLength))
  | .lift factor =>
      .ok (m.drawTo (m.turtle.position.add (Vec3.unitZ.scale (m.turtle.stepLength * factor))))
  | .roundTrip =>
      .ok (m, [.lineTo (m.turtle.ahead m.turtle.stepLength), .lineTo m.turtle.position])
  | .yaw factor => .ok (m.become (m.turtle.yaw (m.signed s.angle factor)))
  | .yawSecondary factor => .ok (m.become (m.turtle.yaw (m.signed s.secondary factor)))
  | .pitch factor => .ok (m.become (m.turtle.pitch (m.signed s.angle factor)))
  | .roll factor => .ok (m.become (m.turtle.roll (m.signed s.angle factor)))
  | .reverseTurns => .ok (m.become { m.turtle with turnSign := -m.turtle.turnSign })
  | .scale => .ok (rescale s m (m.turtle.stepLength * s.coefficient))
  | .shrink =>
      if s.coefficient == 0 then .error .zeroCoefficient
      else .ok (rescale s m (m.turtle.stepLength / s.coefficient))
  | .stepDelta factor => .ok (rescale s m (m.turtle.stepLength + s.stepDelta * factor))
  | .colorToggle =>
      let color := (m.turtle.color + 1) % s.palette
      .ok ({ m with turtle := { m.turtle with color := color } }, [.setColor color])
  | .push =>
      if s.maxStackDepth ≤ m.saved.size then .error (.fullStack m.saved.size)
      else .ok ({ m with saved := m.saved.push m.turtle }, [])
  | .pop =>
      match m.saved.back? with
      | none => .error .emptyStack
      | some t => .ok (⟨t, m.saved.pop⟩, restoring s m.turtle t)
  | .ignore => .ok (m, [])

end Machine

end TurtleCurves
