import TurtleCurves.Proofs.Budget
import TurtleCurves.Proofs.PrimitiveCounts

/-!
# Drawings that stay in the plane

A turtle that never pitches, rolls or is lifted stays in the plane of the first two axes. Over
floats this is no matter of exact arithmetic: a step may overflow, and infinity times zero is a NaN.
What does hold without any assumption on the numbers is that the third coordinate never becomes
anything but a zero or a NaN, because these absorb products and are closed under sums and
differences (`Scalar.Ideal`).

## Shape of the proof

The third coordinate of the heading is made of the first two components of the orientation, so the
invariant `Turtle.Planar` speaks of these as well. A turn about the third axis keeps it
(`Turtle.Planar.yaw`), and the machine keeps it for the turtle and for all saved turtles
(`Machine.Planar.of_step`). None of this looks at what the ideal consists of; the floats come in at
the end.
-/

namespace TurtleCurves

variable {α : Type}

/-- The command leaves the plane: it lifts the turtle or turns it about an axis of the plane. -/
def Command.isSpatial : Command α → Bool
  | lift _ | pitch _ | roll _ => true
  | _ => false

/-! ## Planar machines -/

/-- The orientation turns about the third axis only. -/
def Rotation.Planar (Z : α → Prop) (q : Rotation α) : Prop :=
  Z q.x ∧ Z q.y

/-- The turtle is in the plane and faces a direction of the plane. -/
structure Turtle.Planar (Z : α → Prop) (t : Turtle α) : Prop where
  position : Z t.position.z
  rotation : t.rotation.Planar Z

/-- The turtle and all saved turtles are planar. -/
structure Machine.Planar (Z : α → Prop) (m : Machine α) : Prop where
  turtle : m.turtle.Planar Z
  saved : ∀ t ∈ m.saved, t.Planar Z

/-- All pen positions of the primitives have a third coordinate in `Z`. -/
def InPlane (Z : α → Prop) (ps : List (Primitive α)) : Prop :=
  ∀ v ∈ ps.filterMap Primitive.point?, Z v.z

/-- Where nothing is drawn nothing leaves the plane. -/
theorem InPlane.nil (Z : α → Prop) : InPlane Z [] :=
  fun _ hv => absurd hv List.not_mem_nil

/-- Two parts that stay in the plane do so together. -/
theorem InPlane.append {Z : α → Prop} {ps qs : List (Primitive α)} (hps : InPlane Z ps)
    (hqs : InPlane Z qs) : InPlane Z (ps ++ qs) := by
  rw [InPlane, List.filterMap_append, List.forall_mem_append]
  exact ⟨hps, hqs⟩

namespace Machine.Planar

variable {Z : α → Prop} {m : Machine α}

/-- Drawing to a point of the plane keeps the machine planar. -/
theorem drawTo (hm : m.Planar Z) {p : Vec3 α} (hp : Z p.z) :
    (m.drawTo p).1.Planar Z ∧ InPlane Z (m.drawTo p).2 :=
  ⟨⟨⟨hp, hm.turtle.rotation⟩, hm.saved⟩, List.forall_mem_singleton.2 hp⟩

/-- Moving to a point of the plane keeps the machine planar. -/
theorem jumpTo (hm : m.Planar Z) {p : Vec3 α} (hp : Z p.z) :
    (m.jumpTo p).1.Planar Z ∧ InPlane Z (m.jumpTo p).2 :=
  ⟨⟨⟨hp, hm.turtle.rotation⟩, hm.saved⟩, List.forall_mem_singleton.2 hp⟩

/-- The machine may take over any planar turtle. -/
theorem become (hm : m.Planar Z) {t : Turtle α} (ht : t.Planar Z) :
    (m.become t).1.Planar Z ∧ InPlane Z (m.become t).2 :=
  ⟨⟨ht, hm.saved⟩, InPlane.nil Z⟩

end Machine.Planar

variable [Scalar α]

/-- The return to a planar turtle moves the pen to its position and nowhere else. -/
theorem Turtle.Planar.restoring {Z : α → Prop} (s : Settings α) (current : Turtle α)
    {saved : Turtle α} (h : saved.Planar Z) : InPlane Z (Machine.restoring s current saved) := by
  have hpoints :
      (Machine.restoring s current saved).filterMap Primitive.point? = [saved.position] := by
    rw [Machine.restoring]
    split <;> split <;> rfl
  rw [InPlane, hpoints]
  exact List.forall_mem_singleton.2 h.position

/-- A change of the step leads nowhere. -/
theorem Machine.Planar.rescale {Z : α → Prop} {m : Machine α} (s : Settings α)
    (hm : m.Planar Z) (stepLength : α) :
    (m.rescale s stepLength).1.Planar Z ∧ InPlane Z (m.rescale s stepLength).2 :=
  ⟨⟨⟨hm.turtle.position, hm.turtle.rotation⟩, hm.saved⟩, InPlane.nil Z⟩

/-! ## Ideals -/

/-- Numbers that absorb products and are closed under sums and differences. -/
structure Scalar.Ideal (Z : α → Prop) : Prop where
  zero : Z 0
  mul_left : ∀ {x : α}, Z x → ∀ y, Z (x * y)
  mul_right : ∀ {y : α}, Z y → ∀ x, Z (x * y)
  add : ∀ {x y : α}, Z x → Z y → Z (x + y)
  sub : ∀ {x y : α}, Z x → Z y → Z (x - y)

section Ideal

variable {Z : α → Prop} (hZ : Scalar.Ideal Z)

include hZ

namespace Rotation.Planar

/-- The direction that a turtle faces at the start is one of the plane. -/
theorem aboutZ (angle : α) : (Rotation.aboutZ angle).Planar Z :=
  ⟨hZ.zero, hZ.zero⟩

/-- A turn about the third axis is planar, since the axis has zeros for the other components. -/
theorem aboutAxis_unitZ (angle : α) : (Rotation.aboutAxis Vec3.unitZ angle).Planar Z :=
  ⟨hZ.mul_left hZ.zero _, hZ.mul_left hZ.zero _⟩

/-- Planar orientations have a planar product. -/
theorem mul {p q : Rotation α} (hp : p.Planar Z) (hq : q.Planar Z) : (p.mul q).Planar Z := by
  obtain ⟨hpx, hpy⟩ := hp
  obtain ⟨hqx, hqy⟩ := hq
  -- Each of the two components is made of four products, and every one of these has an `x` or a `y`
  -- among its factors.
  constructor
  · exact hZ.sub (hZ.add (hZ.add (hZ.mul_right hqx _) (hZ.mul_left hpx _)) (hZ.mul_left hpy _))
      (hZ.mul_right hqy _)
  · exact hZ.add (hZ.add (hZ.sub (hZ.mul_right hqy _) (hZ.mul_left hpx _)) (hZ.mul_left hpy _))
      (hZ.mul_right hqx _)

/-- Normalizing keeps an orientation planar, whatever its norm is. -/
theorem normalize {q : Rotation α} (hq : q.Planar Z) : q.normalize.Planar Z :=
  ⟨hZ.mul_left hq.1 _, hZ.mul_left hq.2 _⟩

/-- The first axis is turned within the plane. -/
theorem z_apply_unitX {q : Rotation α} (hq : q.Planar Z) : Z (q.apply Vec3.unitX).z := by
  obtain ⟨hx, hy⟩ := hq
  -- The first axis leaves `x` of the scalar product and `y` of the third component of the cross
  -- product.
  have hdot : Z ((Vec3.unitX : Vec3 α).dot ⟨q.x, q.y, q.z⟩) :=
    hZ.add (hZ.add (hZ.mul_right hx _) (hZ.mul_left hZ.zero _)) (hZ.mul_left hZ.zero _)
  have hcross : Z ((⟨q.x, q.y, q.z⟩ : Vec3 α).cross Vec3.unitX).z :=
    hZ.sub (hZ.mul_left hx _) (hZ.mul_right hy _)
  exact hZ.add (hZ.add (hZ.mul_left hZ.zero _) (hZ.mul_right (hZ.mul_left hdot _) _))
    (hZ.mul_left hcross _)

end Rotation.Planar

/-- What lies ahead of a planar turtle lies in the plane, however far. -/
theorem Turtle.Planar.ahead {t : Turtle α} (ht : t.Planar Z) (length : α) :
    Z (t.ahead length).z :=
  hZ.add ht.position (hZ.mul_left (ht.rotation.z_apply_unitX hZ) length)

/-- A planar turtle that turns about the third axis stays planar. -/
theorem Turtle.Planar.yaw {t : Turtle α} (ht : t.Planar Z) (angle : α) : (t.yaw angle).Planar Z :=
  ⟨ht.position, ((ht.rotation.mul hZ (Rotation.Planar.aboutAxis_unitZ hZ angle)).normalize hZ)⟩

namespace Machine.Planar

variable {s : Settings α} {m m' : Machine α}

/-- The machine starts in the plane. -/
theorem start (options : DrawingOptions α) (motion : TurtleMotion α) :
    (Machine.start options motion).Planar Z :=
  ⟨⟨hZ.zero, Rotation.Planar.aboutZ hZ _⟩, fun _ ht => absurd ht (Array.not_mem_empty _)⟩

/-- A command that does not leave the plane keeps the machine planar and draws in the plane. -/
theorem of_step (hs : s.startRotation.Planar Z) (hm : m.Planar Z) {cmd : Command α}
    (hcmd : cmd.isSpatial = false) {ps : List (Primitive α)} (h : m.step s cmd = .ok (m', ps)) :
    m'.Planar Z ∧ InPlane Z ps := by
  cases cmd with
  | draw | drawScaled =>
    cases h
    exact hm.drawTo (hm.turtle.ahead hZ _)
  | move =>
    cases h
    exact hm.jumpTo (hm.turtle.ahead hZ _)
  | drawFromStart =>
    cases h
    have hturned : Turtle.Planar Z { m.turtle with rotation := s.startRotation } :=
      ⟨hm.turtle.position, hs⟩
    exact (hm.become hturned).1.drawTo (hturned.ahead hZ _)
  | roundTrip =>
    cases h
    exact ⟨hm, (hm.drawTo (hm.turtle.ahead hZ _)).2.append (hm.drawTo hm.turtle.position).2⟩
  | yaw factor | yawSecondary factor =>
    cases h
    exact hm.become (hm.turtle.yaw hZ _)
  | reverseTurns =>
    cases h
    exact hm.become ⟨hm.turtle.position, hm.turtle.rotation⟩
  | scale | stepDelta _ =>
    cases h
    exact hm.rescale s _
  | shrink =>
    -- It changes the step, or it is refused and there is nothing to show.
    rw [step] at h
    split at h
    · cases h
    · cases h
      exact hm.rescale s _
  | colorToggle =>
    cases h
    exact ⟨⟨⟨hm.turtle.position, hm.turtle.rotation⟩, hm.saved⟩, InPlane.nil Z⟩
  | push =>
    -- The turtle that is saved comes back some day, so it has to be planar as well.
    obtain ⟨-, rfl, rfl⟩ := step_push_eq_ok_iff.1 h
    refine ⟨⟨hm.turtle, fun t ht => ?_⟩, InPlane.nil Z⟩
    rcases Array.mem_push.1 ht with ht | rfl
    · exact hm.saved t ht
    · exact hm.turtle
  | pop =>
    obtain ⟨t, hback, rfl, rfl⟩ := step_pop_eq_ok_iff.1 h
    have ht : t.Planar Z := hm.saved t (Array.mem_of_back? hback)
    refine ⟨⟨ht, fun t' ht' => hm.saved t' ?_⟩, ht.restoring s _⟩
    rw [Array.mem_def, Array.toList_pop] at ht'
    exact Array.mem_def.2 (List.mem_of_mem_dropLast ht')
  | ignore =>
    cases h
    exact ⟨hm, InPlane.nil Z⟩
  | lift _ | pitch _ | roll _ => cases hcmd

/-- A run along symbols that do not leave the plane keeps the machine planar and draws in the plane.
-/
theorem of_run {table : SymbolTable α} (hs : s.startRotation.Planar Z) (hm : m.Planar Z) {w : Word}
    (hw : ∀ c ∈ w, (table.command c).isSpatial = false) {ps : List (Primitive α)}
    (h : m.run table s w = .ok (m', ps)) : m'.Planar Z ∧ InPlane Z ps := by
  induction w generalizing m ps with
  | nil =>
    obtain ⟨rfl, rfl⟩ := run_nil_eq_ok_iff.1 h
    exact ⟨hm, InPlane.nil Z⟩
  | cons c w ih =>
    obtain ⟨m₁, ps, qs, hc, hrest, rfl⟩ := run_cons_eq_ok_iff.1 h
    rw [List.forall_mem_cons] at hw
    obtain ⟨hm₁, hps⟩ := of_step hZ hs hm hw.1 hc
    obtain ⟨hm', hqs⟩ := ih hm₁ hw.2 hrest
    exact ⟨hm', hps.append hqs⟩

end Machine.Planar

/-- Where no symbol of a word leaves the plane, the path that the answer comes with is in the
plane. -/
theorem Interpreter.inPlane_of_drawnPath {interpreter : Interpreter α} {motion : TurtleMotion α}
    {w : Word} (hw : ∀ c ∈ w, (interpreter.table.command c).isSpatial = false) {path : Drawing α}
    (h : drawnPath? (interpreter.interpret w motion) = some path) : InPlane Z path.toList := by
  -- The answer need not come from the whole word, but it comes from a beginning of it.
  obtain ⟨n, walk, hwalk, rfl⟩ := exists_walk_of_drawnPath h
  obtain ⟨ps, hrun, hpath⟩ := walk_eq_ok_iff.1 hwalk
  have hstart : (interpreter.settings motion).startRotation.Planar Z := Rotation.Planar.aboutZ hZ _
  have htake : ∀ c ∈ w.take n, (interpreter.table.command c).isSpatial = false :=
    fun c hc => hw c (List.mem_of_mem_take hc)
  obtain ⟨-, hps⟩ := Machine.Planar.of_run hZ hstart (Machine.Planar.start hZ _ _) htake hrun
  rw [hpath]
  have horigin : InPlane Z [.moveTo Vec3.origin] := List.forall_mem_singleton.2 hZ.zero
  exact horigin.append hps

end Ideal

/-! ## Zeros and NaN -/

open Float.Model

/-- The float is one of the two zeros or a NaN. -/
def Vanishes (x : Float) : Prop :=
  x = 0 ∨ x = -0 ∨ x.isNaN = true

/-- What a float that vanishes is unpacked to. -/
inductive Blank : UnpackedFloat → Prop
  | zero (sign : UnpackedFloat.Sign) : Blank (.zero sign)
  | notANumber : Blank .notANumber

/-- A float that vanishes is unpacked to a zero or a NaN. -/
theorem Vanishes.blank {x : Float} (h : Vanishes x) : Blank x.toModel.unpack := by
  rcases h with rfl | rfl | h
  · exact .zero .positive
  · exact .zero .negative
  · have hnan : x.toModel.unpack.isNaN = true := h
    cases hx : x.toModel.unpack with
    | notANumber => exact .notANumber
    | _ => rw [hx] at hnan; cases hnan

/-- A zero or a NaN is packed to a float that vanishes. -/
theorem Blank.vanishes_pack {u : UnpackedFloat} (h : Blank u) : Vanishes (.ofModel (pack u)) := by
  cases h with
  | zero sign =>
    cases sign with
    | positive => exact Or.inl rfl
    | negative => exact Or.inr (Or.inl rfl)
  | notANumber => exact Or.inr (Or.inr rfl)

/-- A zero times any number is a zero, or a NaN if the number is infinite. -/
theorem Blank.mul_left {u : UnpackedFloat} (h : Blank u) (spec : Format) (v : UnpackedFloat) :
    Blank (u.mul spec v) := by
  cases h with
  | zero sign =>
    cases v with
    | zero _ | finite _ _ _ _ => exact .zero _
    | infinity _ | notANumber => exact .notANumber
  | notANumber => exact .notANumber

/-- A number times a zero is a zero, or a NaN if the number is infinite. -/
theorem Blank.mul_right {v : UnpackedFloat} (h : Blank v) (spec : Format) (u : UnpackedFloat) :
    Blank (u.mul spec v) := by
  cases h with
  | zero sign =>
    cases u with
    | zero _ | finite _ _ _ _ => exact .zero _
    | infinity _ | notANumber => exact .notANumber
  | notANumber => cases u <;> exact .notANumber

/-- The sum of zeros and NaN is a zero or a NaN. -/
theorem Blank.add {u v : UnpackedFloat} (hu : Blank u) (hv : Blank v) (spec : Format) :
    Blank (u.add spec v) := by
  cases hu with
  | notANumber => exact .notANumber
  | zero s =>
    cases hv with
    | notANumber => exact .notANumber
    | zero t => cases s <;> cases t <;> exact .zero _

/-- The difference of zeros and NaN is a zero or a NaN. -/
theorem Blank.sub {u v : UnpackedFloat} (hu : Blank u) (hv : Blank v) (spec : Format) :
    Blank (u.sub spec v) := by
  cases hu with
  | notANumber => exact .notANumber
  | zero s =>
    cases hv with
    | notANumber => exact .notANumber
    | zero t => cases s <;> cases t <;> exact .zero _

/-- Whatever a float that vanishes is multiplied by vanishes, infinity included. -/
theorem ideal_vanishes : Scalar.Ideal Vanishes where
  zero := Or.inl rfl
  mul_left h _ := (h.blank.mul_left _ _).vanishes_pack
  mul_right h _ := (h.blank.mul_right _ _).vanishes_pack
  add hx hy := (hx.blank.add hy.blank _).vanishes_pack
  sub hx hy := (hx.blank.sub hy.blank _).vanishes_pack

/-- A float that vanishes is not above the tolerance: its absolute value is zero or a NaN. -/
theorem Vanishes.less_abs {x : Float} (h : Vanishes x) :
    Scalar.less Scalar.tolerance (Scalar.abs x) = false := by
  have hzero : ¬ floatTolerance < .ofModel (pack (.zero .positive)) := by decide
  have hnan : ¬ floatTolerance < .ofModel (pack .notANumber) := by decide
  show decide (floatTolerance < .ofModel (pack x.toModel.unpack.abs)) = false
  have hblank := h.blank
  -- Of the three values that are left the absolute value forgets the sign.
  generalize x.toModel.unpack = u at hblank
  cases hblank with
  | zero sign => exact decide_eq_false hzero
  | notANumber => exact decide_eq_false hnan

/-- A path whose third coordinates vanish does not count as spatial. -/
theorem leavesPlane_of_inPlane {path : Drawing Float} (h : InPlane Vanishes path.toList) :
    path.leavesPlane = false := by
  rw [Drawing.leavesPlane, List.any_eq_false]
  intro p hp
  rw [(h p hp).less_abs]
  exact Bool.false_ne_true

/-- Without symbols that leave the plane the third coordinates of a path vanish. -/
theorem Interpreter.vanishes_of_drawnPath {interpreter : Interpreter Float}
    {motion : TurtleMotion Float} {w : Word} {path : Drawing Float}
    (hw : ∀ c ∈ w, (interpreter.table.command c).isSpatial = false)
    (h : drawnPath? (interpreter.interpret w motion) = some path) :
    (∀ p ∈ path.points, Vanishes p.z) ∧ path.leavesPlane = false := by
  have hpath := inPlane_of_drawnPath ideal_vanishes hw h
  exact ⟨hpath, leavesPlane_of_inPlane hpath⟩

/-- No symbol of the standard alphabet leaves the plane. -/
theorem Alphabet.isSpatial_standard (c : Symbol) :
    ((standard.table : SymbolTable α).command c).isSpatial = false := by
  rw [command_standard]
  split_ifs <;> rfl

/-- Without lifts, pitches and rolls a drawing stays in the plane. Whatever the options and the
numbers of the turtle are, infinities and NaN included, every pen position of the path that an
answer comes with, the path up to a return without a branch included, has a third coordinate that is
a zero of either sign or a NaN, and the path does not count as spatial. This applies to every word
in the standard alphabet. -/
theorem interpret_planar :
    (∀ (interpreter : Interpreter Float) (motion : TurtleMotion Float) (w : Word)
      (path : Drawing Float), (∀ c ∈ w, (interpreter.table.command c).isSpatial = false) →
      drawnPath? (interpreter.interpret w motion) = some path →
      (∀ p ∈ path.points, p.z = 0 ∨ p.z = -0 ∨ p.z.isNaN = true) ∧ path.leavesPlane = false) ∧
    ∀ (options : DrawingOptions Float) (motion : TurtleMotion Float) (w : Word)
      (path : Drawing Float), options.alphabet = .standard →
      drawnPath? ((Interpreter.ofOptions options).interpret w motion) = some path →
      (∀ p ∈ path.points, p.z = 0 ∨ p.z = -0 ∨ p.z.isNaN = true) ∧ path.leavesPlane = false := by
  refine ⟨fun interpreter motion w path => Interpreter.vanishes_of_drawnPath,
    fun options motion w path halphabet => Interpreter.vanishes_of_drawnPath fun c _ => ?_⟩
  have htable : (Interpreter.ofOptions options).table = Alphabet.standard.table := by
    rw [← halphabet]
    rfl
  rw [htable]
  exact Alphabet.isSpatial_standard c

/-- An infinite step and an angle that is a NaN: a table with a second angle, a round trip and turns
back to the starting direction, up to a return without a branch; and the standard alphabet. -/
theorem interpret_planar_infinite :
    let interpreter : Interpreter Float :=
      ⟨.ofList [('a', .drawFromStart), ('y', .yawSecondary 2), ('r', .roundTrip), ('(', .push),
        (')', .pop)], { DrawingOptions.standard with unitLength := 1 / 0 }⟩
    (∃ drawn,
      interpreter.interpret "ya(yr)a)".toList ⟨0 / 0, 1 / 0, 0⟩ =
        .error (.unbalancedBranch 7 drawn) ∧
      (∀ p ∈ drawn.points, p.z = 0 ∨ p.z = -0 ∨ p.z.isNaN = true) ∧ drawn.leavesPlane = false) ∧
    ∃ path,
      (Interpreter.ofOptions { DrawingOptions.standard with unitLength := 1 / 0 }).interpret
          "F[+F]-F".toList ⟨0 / 0, 1 / 0, 0⟩ = .ok path ∧ path.leavesPlane = false := by
  intro interpreter
  constructor
  · obtain ⟨drawn, h⟩ : ∃ drawn, interpreter.interpret "ya(yr)a)".toList ⟨0 / 0, 1 / 0, 0⟩ =
        .error (.unbalancedBranch 7 drawn) := ⟨_, rfl⟩
    have hword : ("ya(yr)a)".toList.any fun c => (interpreter.table.command c).isSpatial) =
        false := by decide +kernel
    have hplanar := interpret_planar.1 interpreter _ _ drawn
      (fun c hc => eq_false_of_ne_true (List.any_eq_false.1 hword c hc)) (by rw [h]; rfl)
    exact ⟨drawn, h, hplanar⟩
  · obtain ⟨path, h⟩ : ∃ path,
        (Interpreter.ofOptions { DrawingOptions.standard with unitLength := 1 / 0 }).interpret
          "F[+F]-F".toList ⟨0 / 0, 1 / 0, 0⟩ = .ok path := ⟨_, rfl⟩
    exact ⟨path, h, (interpret_planar.2 _ _ _ path rfl (by rw [h]; rfl)).2⟩

end TurtleCurves
