import Mathlib.Analysis.SpecialFunctions.Trigonometric.Basic
import TurtleCurves.Turtle.Basic

/-!
# Orientations over exact arithmetic

The formulas of the turtle are written over any scalars. Here they are read over a field whose
sine, cosine and square root keep the few laws of `ElementaryFunctions`, so that nothing is rounded.
Then a turtle that only turns keeps an orientation of norm one: normalizing changes nothing, the
heading has length one, a step of length `v` covers the distance `v`, and a turn is undone by its
opposite.

## Shape of the proof

Two identities between polynomials carry all of this. The norm of a product is the product of the
norms (`Rotation.normSquared_mul`), so every turn keeps the norm, and turning a vector multiplies
its length by the norm (`Rotation.dot_apply`). A turn and its opposite multiply to the orientation
that turns nothing (`Rotation.aboutAxis_mul_neg`), and the product is associative.
-/

namespace TurtleCurves

/-! ## Turning -/

/-- What a turtle does with its orientation: it turns about one of its own axes by an angle in
radians, or faces a direction of the plane again, given in degrees. -/
inductive Turning (α : Type)
  | roll (angle : α)
  | pitch (angle : α)
  | yaw (angle : α)
  | reset (degrees : α)

namespace Turtle

variable {α : Type} [Scalar α]

/-- The turtle after a turning. -/
def perform (t : Turtle α) : Turning α → Turtle α
  | .roll angle => t.roll angle
  | .pitch angle => t.pitch angle
  | .yaw angle => t.yaw angle
  | .reset degrees => { t with rotation := Rotation.facing degrees }

/-- The turtle after a sequence of turnings. -/
def performAll (t : Turtle α) (turnings : List (Turning α)) : Turtle α :=
  turnings.foldl perform t

end Turtle

/-- The square of the distance between two points. -/
def Vec3.distSquared {α : Type} [Scalar α] (v w : Vec3 α) : α :=
  (w.x - v.x) * (w.x - v.x) + (w.y - v.y) * (w.y - v.y) + (w.z - v.z) * (w.z - v.z)

/-! ## Exact scalars -/

/-- The functions that the turtle needs beside the operations of an ordered field. Nothing else is
assumed of angles and roots. -/
class ElementaryFunctions (α : Type) [Field α] where
  sin : α → α
  cos : α → α
  sqrt : α → α
  radians : α → α
  tolerance : α
  sin_sq_add_cos_sq : ∀ a, sin a ^ 2 + cos a ^ 2 = 1
  sin_neg : ∀ a, sin (-a) = -sin a
  cos_neg : ∀ a, cos (-a) = cos a
  sqrt_one : sqrt 1 = 1

section Exact

variable {α : Type} [Field α] [LinearOrder α] [ElementaryFunctions α]

/-- The scalars of a field, with its own operations. -/
instance (priority := low) exactScalar : Scalar α where
  beq a b := decide (a = b)
  sqrt := ElementaryFunctions.sqrt
  sin := ElementaryFunctions.sin
  cos := ElementaryFunctions.cos
  abs a := max a (-a)
  radians := ElementaryFunctions.radians
  less a b := decide (a < b)
  tolerance := ElementaryFunctions.tolerance

namespace Vec3

/-- The first axis has length one. -/
theorem dot_unitX : (unitX : Vec3 α).dot unitX = 1 := by
  simp only [dot, unitX, mul_one, mul_zero, add_zero]

theorem dot_unitY : (unitY : Vec3 α).dot unitY = 1 := by
  simp only [dot, unitY, mul_one, mul_zero, add_zero, zero_add]

theorem dot_unitZ : (unitZ : Vec3 α).dot unitZ = 1 := by
  simp only [dot, unitZ, mul_one, mul_zero, add_zero, zero_add]

/-- The axes of the turtle's frame have length one. -/
theorem dot_axis {axis : Vec3 α} (h : axis ∈ [unitX, unitY, unitZ]) : axis.dot axis = 1 := by
  simp only [List.mem_cons, List.not_mem_nil, or_false] at h
  rcases h with rfl | rfl | rfl
  · exact dot_unitX
  · exact dot_unitY
  · exact dot_unitZ

end Vec3

/-- The law of sine and cosine in the notation of scalars. -/
theorem scalar_sin_sq_add_cos_sq (a : α) : Scalar.sin a ^ 2 + Scalar.cos a ^ 2 = 1 :=
  ElementaryFunctions.sin_sq_add_cos_sq a

namespace Rotation

/-! ## Quaternions -/

/-- The norm of a product is the product of the norms. -/
theorem normSquared_mul (p q : Rotation α) :
    (p.mul q).normSquared = p.normSquared * q.normSquared := by
  simp only [normSquared, mul]
  ring

/-- The product of orientations is associative. -/
theorem mul_assoc (p q r : Rotation α) : (p.mul q).mul r = p.mul (q.mul r) := by
  simp only [mul, mk.injEq]
  refine ⟨?_, ?_, ?_, ?_⟩ <;> ring

/-- Turning by nothing changes nothing. -/
theorem mul_identity (q : Rotation α) : q.mul identity = q := by
  simp only [mul, identity, mul_zero, mul_one, add_zero, zero_add, sub_zero]

/-- Turning a vector multiplies its length by the norm of the turn. -/
theorem dot_apply (q : Rotation α) (v : Vec3 α) :
    (q.apply v).dot (q.apply v) = q.normSquared ^ 2 * v.dot v := by
  simp only [apply, normSquared, Vec3.dot, Vec3.scale, Vec3.add, Vec3.cross, Scalar.two]
  ring

/-- What has norm one is left alone by normalizing. -/
theorem normalize_eq {q : Rotation α} (hq : q.normSquared = 1) : q.normalize = q := by
  have hroot : Scalar.sqrt (1 : α) = 1 := ElementaryFunctions.sqrt_one
  rw [normalize, hq, hroot]
  simp only [div_one, mul_one]

/-! ## Turns -/

/-- A turn about an axis of length one has norm one. -/
theorem normSquared_aboutAxis {axis : Vec3 α} (haxis : axis.dot axis = 1) (angle : α) :
    (aboutAxis axis angle).normSquared = 1 := by
  -- The sine stands in three components, multiplied by those of the axis, the cosine in the fourth.
  have hsum : (aboutAxis axis angle).normSquared =
      Scalar.sin (angle * Scalar.half) ^ 2 * axis.dot axis +
        Scalar.cos (angle * Scalar.half) ^ 2 := by
    simp only [normSquared, aboutAxis, Vec3.dot]
    ring
  rw [hsum, haxis, mul_one, scalar_sin_sq_add_cos_sq]

/-- A direction of the plane is an orientation of norm one. -/
theorem normSquared_facing (degrees : α) : (facing degrees).normSquared = 1 := by
  rw [← scalar_sin_sq_add_cos_sq (Scalar.radians degrees * Scalar.half)]
  simp only [normSquared, facing, aboutZ]
  ring

/-- A turn and the opposite turn about the same axis turn nothing. -/
theorem aboutAxis_mul_neg {axis : Vec3 α} (haxis : axis.dot axis = 1) (angle : α) :
    (aboutAxis axis angle).mul (aboutAxis axis (-angle)) = identity := by
  have hsin : Scalar.sin (-angle * Scalar.half) = -Scalar.sin (angle * Scalar.half) := by
    rw [neg_mul]
    exact ElementaryFunctions.sin_neg _
  have hcos : Scalar.cos (-angle * Scalar.half) = Scalar.cos (angle * Scalar.half) := by
    rw [neg_mul]
    exact ElementaryFunctions.cos_neg _
  have hnorm := normSquared_aboutAxis haxis angle
  simp only [normSquared, aboutAxis] at hnorm
  simp only [mul, aboutAxis, identity, hsin, hcos, mk.injEq]
  -- The vector part cancels out, and the scalar part is the norm of the turn.
  refine ⟨?_, ?_, ?_, ?_⟩
  · ring
  · ring
  · ring
  · rw [← hnorm]
    ring

end Rotation

/-! ## The turtle -/

namespace Turtle

variable {t : Turtle α}

/-- A turn keeps the norm, before normalizing. -/
theorem normSquared_mul_aboutAxis (ht : t.rotation.normSquared = 1) {axis : Vec3 α}
    (haxis : axis.dot axis = 1) (angle : α) :
    (t.rotation.mul (Rotation.aboutAxis axis angle)).normSquared = 1 := by
  rw [Rotation.normSquared_mul, ht, Rotation.normSquared_aboutAxis haxis, one_mul]

/-- Normalizing after a turn changes nothing. -/
theorem rotation_turn (ht : t.rotation.normSquared = 1) {axis : Vec3 α} (haxis : axis.dot axis = 1)
    (angle : α) :
    (t.turn axis angle).rotation = t.rotation.mul (Rotation.aboutAxis axis angle) :=
  Rotation.normalize_eq (normSquared_mul_aboutAxis ht haxis angle)

/-- A turtle that has turned has an orientation of norm one if it had one before. -/
theorem normSquared_turn (ht : t.rotation.normSquared = 1) {axis : Vec3 α}
    (haxis : axis.dot axis = 1) (angle : α) : (t.turn axis angle).rotation.normSquared = 1 := by
  rw [rotation_turn ht haxis]
  exact normSquared_mul_aboutAxis ht haxis angle

/-- A turn is undone by the opposite turn. -/
theorem turn_turn_neg (ht : t.rotation.normSquared = 1) {axis : Vec3 α}
    (haxis : axis.dot axis = 1) (angle : α) : (t.turn axis angle).turn axis (-angle) = t := by
  have hback : ((t.turn axis angle).turn axis (-angle)).rotation = t.rotation := by
    rw [rotation_turn (normSquared_turn ht haxis angle) haxis, rotation_turn ht haxis,
      Rotation.mul_assoc, Rotation.aboutAxis_mul_neg haxis, Rotation.mul_identity]
  -- A turn changes nothing of the turtle but its orientation.
  cases t
  exact congrArg (fun q => Turtle.mk _ q _ _ _) hback

/-- The heading is as long as the first axis. -/
theorem dot_heading (ht : t.rotation.normSquared = 1) : t.heading.dot t.heading = 1 := by
  rw [heading, Rotation.dot_apply, ht, Vec3.dot_unitX, one_pow, mul_one]

/-- What is `v` ahead of a turtle is at distance `v`. -/
theorem distSquared_ahead (ht : t.rotation.normSquared = 1) (v : α) :
    t.position.distSquared (t.ahead v) = v ^ 2 := by
  have hscaled : t.position.distSquared (t.ahead v) = v ^ 2 * t.heading.dot t.heading := by
    simp only [Vec3.distSquared, ahead, Vec3.add, Vec3.scale, Vec3.dot]
    ring
  rw [hscaled, dot_heading ht, mul_one]

/-- A turning keeps the norm. -/
theorem normSquared_perform (ht : t.rotation.normSquared = 1) (turning : Turning α) :
    (t.perform turning).rotation.normSquared = 1 := by
  cases turning with
  | roll angle => exact normSquared_turn ht Vec3.dot_unitX angle
  | pitch angle => exact normSquared_turn ht Vec3.dot_unitY angle
  | yaw angle => exact normSquared_turn ht Vec3.dot_unitZ angle
  | reset degrees => exact Rotation.normSquared_facing degrees

/-- Any number of turnings keep the norm. -/
theorem normSquared_performAll (ht : t.rotation.normSquared = 1) (turnings : List (Turning α)) :
    (t.performAll turnings).rotation.normSquared = 1 := by
  induction turnings generalizing t with
  | nil => exact ht
  | cons turning turnings ih => exact ih (normSquared_perform ht turning)

end Turtle

/-- A turtle that has only turned, however often and about whatever axes, has an orientation of norm
one, and normalizing leaves it alone, now and after one more turn. Its heading has length one, a
point `v` ahead of it is at distance `v`, and any turn about one of its axes is undone by the
opposite turn. -/
theorem turning_is_exact (degrees stepLength : α) (turnings : List (Turning α)) :
    let t := (Turtle.facing degrees stepLength).performAll turnings
    (t.rotation.normSquared = 1 ∧ Scalar.sqrt t.rotation.normSquared = 1) ∧
    (t.rotation.normalize = t.rotation ∧
      ∀ axis ∈ [Vec3.unitX, Vec3.unitY, Vec3.unitZ], ∀ angle,
        (t.rotation.mul (Rotation.aboutAxis axis angle)).normalize =
          t.rotation.mul (Rotation.aboutAxis axis angle)) ∧
    (t.heading.dot t.heading = 1 ∧ Scalar.sqrt (t.heading.dot t.heading) = 1) ∧
    (∀ v, t.position.distSquared (t.ahead v) = v ^ 2) ∧
    ∀ angle, (t.roll angle).roll (-angle) = t ∧ (t.pitch angle).pitch (-angle) = t ∧
      (t.yaw angle).yaw (-angle) = t := by
  intro t
  have hstart : (Turtle.facing degrees stepLength).rotation.normSquared = 1 :=
    Rotation.normSquared_facing degrees
  -- Everything below follows from the norm alone.
  have ht : t.rotation.normSquared = 1 := Turtle.normSquared_performAll hstart turnings
  have hheading : t.heading.dot t.heading = 1 := Turtle.dot_heading ht
  have hroot : Scalar.sqrt (1 : α) = 1 := ElementaryFunctions.sqrt_one
  refine ⟨⟨ht, ?_⟩, ⟨Rotation.normalize_eq ht, fun axis haxis angle => ?_⟩, ⟨hheading, ?_⟩,
    Turtle.distSquared_ahead ht, fun angle => ⟨?_, ?_, ?_⟩⟩
  · rw [ht, hroot]
  · exact Rotation.normalize_eq (Turtle.normSquared_mul_aboutAxis ht (Vec3.dot_axis haxis) angle)
  · rw [hheading, hroot]
  · exact Turtle.turn_turn_neg ht Vec3.dot_unitX angle
  · exact Turtle.turn_turn_neg ht Vec3.dot_unitY angle
  · exact Turtle.turn_turn_neg ht Vec3.dot_unitZ angle

end Exact

/-! ## Real numbers -/

noncomputable instance : ElementaryFunctions ℝ where
  sin := Real.sin
  cos := Real.cos
  sqrt := Real.sqrt
  radians degrees := degrees * (Real.pi / 180)
  tolerance := 0
  sin_sq_add_cos_sq := Real.sin_sq_add_cos_sq
  sin_neg := Real.sin_neg
  cos_neg := Real.cos_neg
  sqrt_one := Real.sqrt_one

/-- A turtle of real numbers that has turned about all three axes, with a reset in between. -/
theorem turning_is_exact_real :
    let t : Turtle ℝ :=
      (Turtle.facing 45 10).performAll [.pitch 1, .yaw (-2), .reset 30, .roll 3, .pitch 1, .yaw 2]
    t.rotation.normSquared = 1 ∧ t.heading.dot t.heading = 1 ∧
      t.position.distSquared (t.ahead 7) = 49 ∧ (t.roll 5).roll (-5) = t := by
  intro t
  obtain ⟨⟨hnorm, -⟩, -, ⟨hheading, -⟩, hahead, hback⟩ := turning_is_exact (45 : ℝ) 10
    [.pitch 1, .yaw (-2), .reset 30, .roll 3, .pitch 1, .yaw 2]
  refine ⟨hnorm, hheading, (hahead 7).trans ?_, (hback 5).1⟩
  norm_num

end TurtleCurves
