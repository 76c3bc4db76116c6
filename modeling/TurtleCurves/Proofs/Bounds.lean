import Mathlib.Data.List.DropRight
import TurtleCurves.Drawing.Basic
import TurtleCurves.Proofs.FloatOrder

/-!
# Boxes around paths

The box of a path is found by comparing each pen position with the box so far, axis by axis and
corner by corner. Each of the six corner coordinates is the result of one and the same selection: it
stays as long as it compares favourably with the next coordinate and gives way otherwise
(`select`). Since a NaN compares with nothing, it takes the place of whatever was selected and gives
way to whatever comes next, so the selection starts again behind it.

## Shape of the proof

`foldl_select` is about any weak order and any list. The values at its end that are ordered, that
is, those behind the last NaN, decide what is selected: one of them which none of them comes before.
The coordinates of the corners are such selections (`coordinate_bounds`), for the lower corner by
the order of floats and for the upper corner by the same order read the other way round.
-/

namespace TurtleCurves

/-! ## Selections -/

section Select

variable {β : Type} {ordered : β → Bool} {r : β → β → Bool}

/-- The first value if it comes before the second, else the second. -/
def select (r : β → β → Bool) (a b : β) : β :=
  if r a b then a else b

/-- The values at the end of a list that are ordered decide what is selected from it: one of them
which none of them comes before. If the last value is not ordered it is selected itself. -/
theorem foldl_select (hr : WeakOrder ordered r) (a : β) (bs : List β) :
    (a :: bs).rtakeWhile ordered = [] ∧ ordered (bs.foldl (select r) a) = false ∨
      bs.foldl (select r) a ∈ (a :: bs).rtakeWhile ordered ∧
        ∀ b ∈ (a :: bs).rtakeWhile ordered, r b (bs.foldl (select r) a) = false := by
  induction bs using List.reverseRecOn with
  | nil =>
    rw [List.foldl_nil, ← List.nil_append [a], List.rtakeWhile_concat, List.rtakeWhile_nil]
    split
    · exact Or.inr ⟨List.mem_singleton_self a, List.forall_mem_singleton.2 (hr.irrefl a)⟩
    · next ha => exact Or.inl ⟨rfl, Bool.eq_false_of_not_eq_true ha⟩
  | append_singleton bs b ih =>
    rw [List.foldl_concat, ← List.cons_append, List.rtakeWhile_concat]
    -- From here on `m` is what was selected so far and `run` the ordered values at the end.
    have hordered : ∀ c ∈ (a :: bs).rtakeWhile ordered, ordered c = true :=
      fun c hc => List.mem_rtakeWhile_imp hc
    generalize bs.foldl (select r) a = m at ih
    generalize (a :: bs).rtakeWhile ordered = run at ih hordered
    by_cases hb : ordered b = true
    · rw [if_pos hb]
      refine Or.inr ?_
      obtain ⟨rfl, hm⟩ | ⟨hm, hfirst⟩ := ih
      · -- The last value before `b` is not ordered and gives way.
        have hmb : ¬ r m b = true := fun h => Bool.false_ne_true (hm ▸ hr.left h)
        rw [select, if_neg hmb]
        exact ⟨List.mem_singleton_self b, List.forall_mem_singleton.2 (hr.irrefl b)⟩
      · rw [select, List.forall_mem_append, List.forall_mem_singleton]
        split
        · next hmb => exact ⟨List.mem_append_left _ hm, hfirst, hr.asymm hmb⟩
        · next hmb =>
          refine ⟨List.mem_append_right _ (List.mem_singleton_self b), fun c hc => ?_, hr.irrefl b⟩
          -- What came before `b` would come before `m`, or `m` would come before `b`.
          refine Bool.eq_false_iff.2 fun hcb => ?_
          rcases hr.between hcb m (hordered m hm) with hcm | h
          · exact Bool.false_ne_true (hfirst c hc ▸ hcm)
          · exact hmb h
    · have hmb : ¬ r m b = true := fun h => hb (hr.right h)
      rw [if_neg hb, select, if_neg hmb]
      exact Or.inl ⟨rfl, Bool.eq_false_of_not_eq_true hb⟩

end Select

/-! ## Corners -/

/-- The three axes of space. -/
inductive Axis
  | x
  | y
  | z

/-- The coordinate of a point along an axis. -/
def Vec3.coordinate {α : Type} (axis : Axis) (v : Vec3 α) : α :=
  match axis with
  | .x => v.x
  | .y => v.y
  | .z => v.z

namespace Drawing

variable {α : Type}

/-- A path has no pen position exactly if it neither moves the pen nor draws. -/
theorem points_eq_nil_iff {path : Drawing α} :
    path.points = [] ↔ ∀ v, .moveTo v ∉ path.toList ∧ .lineTo v ∉ path.toList := by
  rw [points, List.filterMap_eq_nil_iff]
  constructor
  · intro h v
    exact ⟨fun hmem => absurd (h _ hmem) (Option.some_ne_none v),
      fun hmem => absurd (h _ hmem) (Option.some_ne_none v)⟩
  · intro h p hp
    cases p with
    | moveTo v => exact absurd hp (h v).1
    | lineTo v => exact absurd hp (h v).2
    | setColor _ | setScale _ => rfl

variable [Scalar α]

/-- A box that has been begun grows at both corners independently. -/
theorem foldl_growBox (box : Box α) (ps : List (Vec3 α)) :
    ps.foldl growBox (some box) =
      some ⟨ps.foldl Vec3.lower box.low, ps.foldl Vec3.upper box.high⟩ := by
  induction ps generalizing box with
  | nil => rfl
  | cons p ps ih => exact ih _

/-- Along each axis the lower corner is selected by the order of scalars. -/
theorem coordinate_foldl_lower (axis : Axis) (p : Vec3 α) (ps : List (Vec3 α)) :
    (ps.foldl Vec3.lower p).coordinate axis =
      (ps.map (Vec3.coordinate axis)).foldl (select Scalar.less) (p.coordinate axis) := by
  induction ps generalizing p with
  | nil => rfl
  | cons q ps ih =>
    have hlower : (p.lower q).coordinate axis =
        select Scalar.less (p.coordinate axis) (q.coordinate axis) := by cases axis <;> rfl
    rw [List.foldl_cons, ih, hlower]
    rfl

/-- Along each axis the upper corner is selected by the opposite order. -/
theorem coordinate_foldl_upper (axis : Axis) (p : Vec3 α) (ps : List (Vec3 α)) :
    (ps.foldl Vec3.upper p).coordinate axis =
      (ps.map (Vec3.coordinate axis)).foldl (select (Function.swap Scalar.less))
        (p.coordinate axis) := by
  induction ps generalizing p with
  | nil => rfl
  | cons q ps ih =>
    have hupper : (p.upper q).coordinate axis =
        select (Function.swap Scalar.less) (p.coordinate axis) (q.coordinate axis) := by
      cases axis <;> rfl
    rw [List.foldl_cons, ih, hupper]
    rfl

/-- A path has a box as soon as it has a pen position. -/
theorem bounds_eq_none_iff {path : Drawing α} : path.bounds = none ↔ path.points = [] := by
  rw [bounds]
  cases path.points with
  | nil => exact iff_of_true rfl rfl
  | cons p ps =>
    rw [List.foldl_cons, growBox, foldl_growBox]
    exact iff_of_false (Option.some_ne_none _) (List.cons_ne_nil _ _)

/-- The corners of a box are selected along each axis from the coordinates of the pen positions. -/
theorem coordinate_bounds {path : Drawing α} {box : Box α} (h : path.bounds = some box)
    (axis : Axis) :
    ∃ a bs, path.points.map (Vec3.coordinate axis) = a :: bs ∧
      box.low.coordinate axis = bs.foldl (select Scalar.less) a ∧
      box.high.coordinate axis = bs.foldl (select (Function.swap Scalar.less)) a := by
  rw [bounds] at h
  cases hpoints : path.points with
  | nil =>
    rw [hpoints] at h
    cases h
  | cons p ps =>
    rw [hpoints, List.foldl_cons, growBox, foldl_growBox] at h
    obtain rfl := Option.some.inj h
    exact ⟨p.coordinate axis, ps.map (Vec3.coordinate axis), rfl, coordinate_foldl_lower axis p ps,
      coordinate_foldl_upper axis p ps⟩

/-! ## Boxes of floats -/

/-- The coordinates along an axis behind the last one that is a NaN. -/
def lastOrdered (path : Drawing Float) (axis : Axis) : List Float :=
  (path.points.map (Vec3.coordinate axis)).rtakeWhile fun x => !x.isNaN

/-- Behind the last NaN there is none. -/
theorem isNaN_of_mem_lastOrdered {path : Drawing Float} {axis : Axis} {x : Float}
    (h : x ∈ path.lastOrdered axis) : x.isNaN = false := by
  rw [lastOrdered] at h
  have hordered := List.mem_rtakeWhile_imp h
  rwa [Bool.not_eq_true'] at hordered

/-- Only a NaN at the last pen position leaves nothing behind it. -/
theorem lastOrdered_eq_nil_iff {path : Drawing Float} {last : Vec3 Float}
    (h : path.points.getLast? = some last) (axis : Axis) :
    path.lastOrdered axis = [] ↔ (last.coordinate axis).isNaN = true := by
  obtain ⟨before, hpoints⟩ := List.getLast?_eq_some_iff.1 h
  rw [lastOrdered, hpoints, List.map_append, List.map_singleton, List.rtakeWhile_concat]
  cases (last.coordinate axis).isNaN with
  | true => exact iff_of_true rfl rfl
  | false =>
    rw [if_pos Bool.not_false]
    exact iff_of_false (List.append_ne_nil_of_right_ne_nil _ (List.cons_ne_nil _ _))
      Bool.false_ne_true

/-- Where no coordinate is a NaN all of them are behind the last NaN. -/
theorem lastOrdered_eq {path : Drawing Float} {axis : Axis}
    (h : ∀ p ∈ path.points, (p.coordinate axis).isNaN = false) :
    path.lastOrdered axis = path.points.map (Vec3.coordinate axis) := by
  rw [lastOrdered, List.rtakeWhile_eq_self_iff, List.forall_mem_map]
  intro p hp
  rw [h p hp]
  rfl

/-- Along each axis the corners are the extremes of the coordinates behind the last NaN, or both a
NaN if there are none. -/
theorem bounds_cases {path : Drawing Float} {box : Box Float} (h : path.bounds = some box)
    (axis : Axis) :
    path.lastOrdered axis = [] ∧ (box.low.coordinate axis).isNaN = true ∧
        (box.high.coordinate axis).isNaN = true ∨
      box.low.coordinate axis ∈ path.lastOrdered axis ∧
        box.high.coordinate axis ∈ path.lastOrdered axis ∧
        ∀ x ∈ path.lastOrdered axis,
          box.low.coordinate axis ≤ x ∧ x ≤ box.high.coordinate axis := by
  obtain ⟨a, bs, hxs, hlow, hhigh⟩ := coordinate_bounds h axis
  have hrun : (a :: bs).rtakeWhile (fun x => !x.isNaN) = path.lastOrdered axis := by
    rw [lastOrdered, hxs]
  -- Both corners are selected from one list, so they are both a NaN or neither is.
  have hl := foldl_select weakOrder_less a bs
  have hh := foldl_select weakOrder_less.flip a bs
  rw [← hlow, hrun, Bool.not_eq_false'] at hl
  rw [← hhigh, hrun, Bool.not_eq_false'] at hh
  obtain ⟨hnil, hlnan⟩ | ⟨hlmem, hleast⟩ := hl
  · obtain ⟨-, hhnan⟩ | ⟨hhmem, -⟩ := hh
    · exact Or.inl ⟨hnil, hlnan, hhnan⟩
    · rw [hnil] at hhmem
      exact absurd hhmem List.not_mem_nil
  · obtain ⟨hnil, -⟩ | ⟨hhmem, hgreatest⟩ := hh
    · rw [hnil] at hlmem
      exact absurd hlmem List.not_mem_nil
    · have hl := isNaN_of_mem_lastOrdered hlmem
      have hh := isNaN_of_mem_lastOrdered hhmem
      refine Or.inr ⟨hlmem, hhmem, fun x hx => ?_⟩
      have hx' := isNaN_of_mem_lastOrdered hx
      exact ⟨float_le_of_not_lt hx' hl (of_decide_eq_false (hleast x hx)),
        float_le_of_not_lt hh hx' (of_decide_eq_false (hgreatest x hx))⟩

/-- Where no coordinate along an axis is a NaN, the corners are the extremes of all of them. -/
theorem bounds_of_ordered {path : Drawing Float} {box : Box Float} (h : path.bounds = some box)
    {axis : Axis} (hordered : ∀ p ∈ path.points, (p.coordinate axis).isNaN = false) :
    box.low.coordinate axis ∈ path.points.map (Vec3.coordinate axis) ∧
      box.high.coordinate axis ∈ path.points.map (Vec3.coordinate axis) ∧
      ∀ x ∈ path.points.map (Vec3.coordinate axis),
        box.low.coordinate axis ≤ x ∧ x ≤ box.high.coordinate axis := by
  rw [← lastOrdered_eq hordered]
  obtain ⟨hnil, -⟩ | hextremes := bounds_cases h axis
  · rw [lastOrdered_eq hordered, List.map_eq_nil_iff, ← bounds_eq_none_iff, h] at hnil
    cases hnil
  · exact hextremes

/-- Where no coordinate is a NaN, the order of the pen positions decides at most the sign of a zero.
-/
theorem bounds_beq_of_perm {path path' : Drawing Float} {box : Box Float}
    (h : path.bounds = some box)
    (hordered : ∀ p ∈ path.points, ∀ axis, (p.coordinate axis).isNaN = false)
    (hperm : path'.points.Perm path.points) :
    ∃ box', path'.bounds = some box' ∧ ∀ axis,
      (box'.low.coordinate axis == box.low.coordinate axis) = true ∧
      (box'.high.coordinate axis == box.high.coordinate axis) = true := by
  obtain ⟨box', h'⟩ : ∃ box', path'.bounds = some box' := by
    rw [← Option.ne_none_iff_exists', ne_eq, bounds_eq_none_iff]
    intro hnil
    rw [hnil, List.nil_perm, ← bounds_eq_none_iff, h] at hperm
    cases hperm
  refine ⟨box', h', fun axis => ?_⟩
  obtain ⟨hlow, hhigh, hbetween⟩ := bounds_of_ordered h fun p hp => hordered p hp axis
  obtain ⟨hlow', hhigh', hbetween'⟩ :=
    bounds_of_ordered h' fun p hp => hordered p (hperm.mem_iff.1 hp) axis
  -- Each extreme of the one path is a coordinate of the other, so it lies between the extremes
  -- there.
  have hmem : ∀ x, x ∈ path'.points.map (Vec3.coordinate axis) ↔
      x ∈ path.points.map (Vec3.coordinate axis) := fun x => (hperm.map _).mem_iff
  constructor
  · exact float_beq_of_le_of_le (hbetween' _ ((hmem _).2 hlow)).1
      (hbetween _ ((hmem _).1 hlow')).1
  · exact float_beq_of_le_of_le (hbetween _ ((hmem _).1 hhigh')).2
      (hbetween' _ ((hmem _).2 hhigh)).2

end Drawing

/-- The box of a path is tight. There is none exactly if the path has no pen position. Otherwise,
axis by axis, both corners are a NaN if the last pen position is, and if not, they are the least and
the greatest of the coordinates behind the last NaN and are attained by two of them. So without NaN
every pen position is between the corners, every coordinate of a corner is attained, and the order
of the pen positions decides at most the sign of a zero. -/
theorem bounds_tight (path : Drawing Float) :
    (path.bounds = none ↔ ∀ v, .moveTo v ∉ path.toList ∧ .lineTo v ∉ path.toList) ∧
    (∀ box, path.bounds = some box → ∃ last, path.points.getLast? = some last ∧ ∀ axis,
      ((last.coordinate axis).isNaN = true →
        (box.low.coordinate axis).isNaN = true ∧ (box.high.coordinate axis).isNaN = true) ∧
      ((last.coordinate axis).isNaN = false →
        box.low.coordinate axis ∈ path.lastOrdered axis ∧
        box.high.coordinate axis ∈ path.lastOrdered axis ∧
        ∀ x ∈ path.lastOrdered axis,
          box.low.coordinate axis ≤ x ∧ x ≤ box.high.coordinate axis)) ∧
    ∀ box, path.bounds = some box →
      (∀ p ∈ path.points, ∀ axis, (p.coordinate axis).isNaN = false) →
      (∀ axis,
        (∀ p ∈ path.points,
          box.low.coordinate axis ≤ p.coordinate axis ∧
            p.coordinate axis ≤ box.high.coordinate axis) ∧
        (∃ p ∈ path.points, p.coordinate axis = box.low.coordinate axis) ∧
        ∃ p ∈ path.points, p.coordinate axis = box.high.coordinate axis) ∧
      ∀ path' : Drawing Float, path'.points.Perm path.points →
        ∃ box', path'.bounds = some box' ∧ ∀ axis,
          (box'.low.coordinate axis == box.low.coordinate axis) = true ∧
          (box'.high.coordinate axis == box.high.coordinate axis) = true := by
  refine ⟨Drawing.bounds_eq_none_iff.trans Drawing.points_eq_nil_iff, fun box h => ?_,
    fun box h hordered => ⟨fun axis => ?_, fun path' => Drawing.bounds_beq_of_perm h hordered⟩⟩
  · obtain ⟨last, hlast⟩ : ∃ last, path.points.getLast? = some last := by
      rw [← Option.ne_none_iff_exists', ne_eq, List.getLast?_eq_none_iff,
        ← Drawing.bounds_eq_none_iff, h]
      exact Option.some_ne_none box
    refine ⟨last, hlast, fun axis => ?_⟩
    rw [← Drawing.lastOrdered_eq_nil_iff hlast, ← Bool.not_eq_true,
      ← Drawing.lastOrdered_eq_nil_iff hlast]
    obtain ⟨hnil, hnan⟩ | ⟨hlow, hextremes⟩ := Drawing.bounds_cases h axis
    · exact ⟨fun _ => hnan, fun hne => absurd hnil hne⟩
    · exact ⟨fun hnil => absurd (hnil ▸ hlow) List.not_mem_nil, fun _ => ⟨hlow, hextremes⟩⟩
  · obtain ⟨hlow, hhigh, hbetween⟩ := Drawing.bounds_of_ordered h fun p hp => hordered p hp axis
    exact ⟨fun p hp => hbetween _ (List.mem_map_of_mem hp), List.mem_map.1 hlow,
      List.mem_map.1 hhigh⟩

/-- A path whose first coordinate starts again behind a NaN and whose third ends with one; and a
path without NaN next to its pen positions the other way round, among them zeros of both signs. -/
theorem bounds_tight_restart :
    (let path : Drawing Float :=
        ⟨#[.moveTo ⟨0, 3, 0⟩, .lineTo ⟨0 / 0, 1, 1⟩, .setColor 1, .lineTo ⟨2, 2, 0 / 0⟩]⟩
      ∃ box, path.bounds = some box ∧ box.low.x = 2 ∧ box.high.x = 2 ∧ box.low.y ≤ 1 ∧
        3 ≤ box.high.y ∧ box.low.z.isNaN = true) ∧
    let path : Drawing Float := ⟨#[.moveTo ⟨0, 0, 5⟩, .lineTo ⟨-0, 1, 5⟩]⟩
    let path' : Drawing Float := ⟨#[.moveTo ⟨-0, 1, 5⟩, .lineTo ⟨0, 0, 5⟩]⟩
    ∃ box box', path.bounds = some box ∧ path'.bounds = some box' ∧ 1 ≤ box.high.y ∧
      (box'.low.x == box.low.x) = true := by
  constructor
  · intro path
    obtain ⟨box, hbox⟩ : ∃ box, path.bounds = some box := ⟨_, rfl⟩
    obtain ⟨last, hlast, haxes⟩ := (bounds_tight path).2.1 box hbox
    obtain rfl : (⟨2, 2, 0 / 0⟩ : Vec3 Float) = last := Option.some.inj hlast
    have hx : path.lastOrdered .x = [2] := rfl
    have hy : path.lastOrdered .y = [3, 1, 2] := rfl
    obtain ⟨hlow, hhigh, -⟩ := (haxes .x).2 rfl
    obtain ⟨-, -, hbetween⟩ := (haxes .y).2 rfl
    obtain ⟨hnan, -⟩ := (haxes .z).1 rfl
    rw [hx, List.mem_singleton] at hlow hhigh
    rw [hy] at hbetween
    exact ⟨box, hbox, hlow, hhigh, (hbetween 1 (by simp)).1, (hbetween 3 (by simp)).2, hnan⟩
  · intro path path'
    obtain ⟨box, hbox⟩ : ∃ box, path.bounds = some box := ⟨_, rfl⟩
    have hpoints : path.points = [⟨0, 0, 5⟩, ⟨-0, 1, 5⟩] := rfl
    have hordered : ∀ p ∈ path.points, ∀ axis, (p.coordinate axis).isNaN = false := by
      rw [hpoints, List.forall_mem_cons, List.forall_mem_singleton]
      constructor <;> rintro (_ | _ | _) <;> rfl
    obtain ⟨hextremes, horder⟩ := (bounds_tight path).2.2 box hbox hordered
    have hperm : path'.points.Perm path.points := List.Perm.swap _ _ _
    obtain ⟨box', hbox', hbeq⟩ := horder path' hperm
    have hmem : (⟨-0, 1, 5⟩ : Vec3 Float) ∈ path.points := by
      rw [hpoints]
      simp
    exact ⟨box, box', hbox, hbox', ((hextremes .y).1 _ hmem).2, (hbeq .x).1⟩

end TurtleCurves
