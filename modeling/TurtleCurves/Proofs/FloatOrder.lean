import Mathlib.Data.Prod.Lex
import TurtleCurves.Geometry.Scalar

/-!
# Order of floats

Floats that are not NaN stand in a line, in which only the two zeros share a place; a NaN has no
place and is neither less nor greater than anything. `orderKey` is the place of a float, a number of
a linear order, and every comparison of floats is the comparison of their places
(`compare_eq_orderKey`).

What is selected from floats by comparing them depends on their order only as far as it is a
`WeakOrder`: NaN is related to nothing, and of two floats of which one is less, every third float
that is not NaN is above the one or below the other.
-/

namespace TurtleCurves

open Float.Model

/-! ## Places -/

/-- The place of a float: first its sign and size class, then for a finite one the exponent and then
the mantissa, both the other way round below zero. -/
def orderKey : UnpackedFloat → Option (ℤ ×ₗ ℤ ×ₗ ℤ)
  | .notANumber => none
  | .infinity .negative => some (toLex (-2, toLex (0, 0)))
  | .finite .negative mantissa exponent _ =>
      some (toLex (-1, toLex (-exponent, -(mantissa : ℤ))))
  | .zero _ => some (toLex (0, toLex (0, 0)))
  | .finite .positive mantissa exponent _ => some (toLex (1, toLex (exponent, (mantissa : ℤ))))
  | .infinity .positive => some (toLex (2, toLex (0, 0)))

/-- Opposite numbers stand in the opposite order. -/
theorem compare_neg_neg (a b : ℤ) : compare (-a) (-b) = (compare a b).swap := by
  rcases lt_trichotomy a b with h | rfl | h
  · rw [compare_lt_iff_lt.2 h, compare_gt_iff_gt.2 (Int.neg_lt_neg h), Ordering.swap]
  · rw [Std.compare_self, Std.compare_self, Ordering.swap]
  · rw [compare_gt_iff_gt.2 h, compare_lt_iff_lt.2 (Int.neg_lt_neg h), Ordering.swap]

theorem compare_natCast (m n : ℕ) : compare (m : ℤ) (n : ℤ) = compare m n := by
  rcases lt_trichotomy m n with h | rfl | h
  · rw [compare_lt_iff_lt.2 h, compare_lt_iff_lt.2 (Int.ofNat_lt.2 h)]
  · rw [Std.compare_self, Std.compare_self]
  · rw [compare_gt_iff_gt.2 h, compare_gt_iff_gt.2 (Int.ofNat_lt.2 h)]

/-- Finite floats of one sign are compared by exponent and mantissa. -/
theorem compare_finite (s t : UnpackedFloat.Sign) {m n : ℕ} (e f : ℤ) (hm : 0 < m) (hn : 0 < n) :
    (UnpackedFloat.finite s m e hm).compare (.finite t n f hn) =
      (orderKey (.finite s m e hm)).bind fun x =>
        (orderKey (.finite t n f hn)).map fun y => compare x y := by
  -- Floats of different signs are decided by the signs; below zero the larger exponent comes first.
  cases s with
  | negative =>
    cases t with
    | negative =>
      show some ((compare e f).then (compare m n)).swap =
        some ((compare (-e) (-f)).then (compare (-(m : ℤ)) (-(n : ℤ))))
      rw [compare_neg_neg, compare_neg_neg, compare_natCast, Ordering.swap_then]
    | positive => rfl
  | positive =>
    cases t with
    | negative => rfl
    | positive =>
      show some ((compare e f).then (compare m n)) =
        some ((compare e f).then (compare (m : ℤ) (n : ℤ)))
      rw [compare_natCast]

/-- Floats are compared by their places; where one of them has none there is no answer. -/
theorem compare_eq_orderKey (a b : UnpackedFloat) :
    a.compare b = (orderKey a).bind fun x => (orderKey b).map fun y => compare x y := by
  -- Case by case, both sides compute to the same answer but for two finite floats.
  cases a with
  | notANumber => cases b <;> rfl
  | zero s =>
    cases b with
    | notANumber | zero _ => rfl
    | finite t _ _ _ | infinity t => cases t <;> rfl
  | infinity s =>
    cases b with
    | notANumber | zero _ => cases s <;> rfl
    | finite t _ _ _ | infinity t => cases s <;> cases t <;> rfl
  | finite s m e hm =>
    cases b with
    | notANumber | zero _ => cases s <;> rfl
    | infinity t => cases s <;> cases t <;> rfl
    | finite t n f hn => exact compare_finite s t e f hm hn

/-- The place of a float. -/
def floatKey (x : Float) : Option (ℤ ×ₗ ℤ ×ₗ ℤ) :=
  orderKey x.toModel.unpack

/-- A float is less than another if its place is; a NaN is less than nothing. -/
theorem float_lt_iff {x y : Float} : x < y ↔ ∃ a ∈ floatKey x, ∃ b ∈ floatKey y, a < b := by
  show decide ((x.toModel.unpack.compare y.toModel.unpack == some .lt) = true) = true ↔ _
  rw [decide_eq_true_iff, beq_iff_eq, compare_eq_orderKey]
  simp only [Option.bind_eq_some_iff, Option.map_eq_some_iff, compare_lt_iff_lt, floatKey,
    Option.mem_def]

/-- A float is at most another if its place is; a NaN is not even at most itself. -/
theorem float_le_iff {x y : Float} : x ≤ y ↔ ∃ a ∈ floatKey x, ∃ b ∈ floatKey y, a ≤ b := by
  show decide ((x.toModel.unpack.compare y.toModel.unpack).any (·.isLE) = true) = true ↔ _
  rw [decide_eq_true_iff, compare_eq_orderKey, Option.any_eq_true]
  simp only [Option.mem_def, Option.bind_eq_some_iff, Option.map_eq_some_iff, floatKey]
  constructor
  · rintro ⟨_, ⟨a, ha, b, hb, rfl⟩, hle⟩
    exact ⟨a, ha, b, hb, compare_le_iff_le.1 (Ordering.isLE_iff_ne_gt.1 hle)⟩
  · rintro ⟨a, ha, b, hb, hle⟩
    exact ⟨_, ⟨a, ha, b, hb, rfl⟩, Ordering.isLE_iff_ne_gt.2 (compare_le_iff_le.2 hle)⟩

/-- Floats are equal if they share a place; a NaN does not equal itself. -/
theorem float_beq_iff_floatKey {x y : Float} :
    (x == y) = true ↔ ∃ a ∈ floatKey x, a ∈ floatKey y := by
  show (x.toModel.unpack.compare y.toModel.unpack == some .eq) = true ↔ _
  rw [beq_iff_eq, compare_eq_orderKey]
  simp only [Option.bind_eq_some_iff, Option.map_eq_some_iff, compare_eq_iff_eq, floatKey,
    Option.mem_def]
  simp

/-- Only a NaN has no place. -/
theorem isNaN_iff_floatKey {x : Float} : x.isNaN = true ↔ floatKey x = none := by
  show x.toModel.unpack.isNaN = true ↔ orderKey x.toModel.unpack = none
  cases x.toModel.unpack with
  | notANumber => exact iff_of_true rfl rfl
  | zero _ => exact iff_of_false Bool.false_ne_true (Option.some_ne_none _)
  | infinity s | finite s _ _ _ =>
    cases s <;> exact iff_of_false Bool.false_ne_true (Option.some_ne_none _)

/-- Every float but a NaN has a place. -/
theorem isNaN_eq_false_iff {x : Float} : x.isNaN = false ↔ ∃ a, a ∈ floatKey x := by
  rw [← Bool.not_eq_true, isNaN_iff_floatKey, ← ne_eq, Option.ne_none_iff_exists']
  rfl

/-- Of two floats that are not NaN the one is less or the other is at most as large. -/
theorem float_le_of_not_lt {x y : Float} (hx : x.isNaN = false) (hy : y.isNaN = false)
    (h : ¬ x < y) : y ≤ x := by
  obtain ⟨a, ha⟩ := isNaN_eq_false_iff.1 hx
  obtain ⟨b, hb⟩ := isNaN_eq_false_iff.1 hy
  refine float_le_iff.2 ⟨b, hb, a, ha, not_lt.1 fun hlt => h ?_⟩
  exact float_lt_iff.2 ⟨a, ha, b, hb, hlt⟩

/-- Floats of which each is at most as large as the other are equal, or they are the two zeros. -/
theorem float_beq_of_le_of_le {x y : Float} (hxy : x ≤ y) (hyx : y ≤ x) : (x == y) = true := by
  obtain ⟨a, ha, b, hb, hle⟩ := float_le_iff.1 hxy
  obtain ⟨b', hb', a', ha', hle'⟩ := float_le_iff.1 hyx
  obtain rfl : b = b' := Option.mem_unique hb hb'
  obtain rfl : a = a' := Option.mem_unique ha ha'
  obtain rfl : a = b := le_antisymm hle hle'
  exact float_beq_iff_floatKey.2 ⟨a, ha, hb⟩

/-! ## Weak orders -/

/-- The relation orders what is `ordered` into classes, one before the other, and relates nothing
else. -/
structure WeakOrder {β : Type} (ordered : β → Bool) (r : β → β → Bool) : Prop where
  left : ∀ {a b : β}, r a b = true → ordered a = true
  right : ∀ {a b : β}, r a b = true → ordered b = true
  asymm : ∀ {a b : β}, r a b = true → r b a = false
  between : ∀ {a b : β}, r a b = true → ∀ c, ordered c = true → r a c = true ∨ r c b = true

namespace WeakOrder

variable {β : Type} {ordered : β → Bool} {r : β → β → Bool}

/-- Nothing comes before itself. -/
theorem irrefl (h : WeakOrder ordered r) (a : β) : r a a = false := by
  by_contra hne
  have hself : r a a = true := Bool.eq_true_of_not_eq_false hne
  exact hne (h.asymm hself)

/-- The order read the other way round. -/
theorem flip (h : WeakOrder ordered r) : WeakOrder ordered (Function.swap r) where
  left := h.right
  right := h.left
  asymm := h.asymm
  between hab c hc := (h.between hab c hc).symm

end WeakOrder

/-- Scalars that are floats are compared by their places. -/
theorem less_iff {x y : Float} :
    Scalar.less x y = true ↔ ∃ a ∈ floatKey x, ∃ b ∈ floatKey y, a < b := by
  rw [← float_lt_iff]
  exact decide_eq_true_iff

/-- The comparison of floats is a weak order of those that are not NaN. -/
theorem weakOrder_less : WeakOrder (fun x : Float => !x.isNaN) Scalar.less where
  left h := by
    obtain ⟨a, ha, -⟩ := less_iff.1 h
    rw [Bool.not_eq_true']
    exact isNaN_eq_false_iff.2 ⟨a, ha⟩
  right h := by
    obtain ⟨-, -, b, hb, -⟩ := less_iff.1 h
    rw [Bool.not_eq_true']
    exact isNaN_eq_false_iff.2 ⟨b, hb⟩
  asymm h := by
    obtain ⟨a, ha, b, hb, hlt⟩ := less_iff.1 h
    refine Bool.eq_false_iff.2 fun h' => ?_
    obtain ⟨b', hb', a', ha', hlt'⟩ := less_iff.1 h'
    obtain rfl : b = b' := Option.mem_unique hb hb'
    obtain rfl : a = a' := Option.mem_unique ha ha'
    exact lt_asymm hlt hlt'
  between h z hz := by
    obtain ⟨a, ha, b, hb, hlt⟩ := less_iff.1 h
    rw [Bool.not_eq_true'] at hz
    obtain ⟨c, hc⟩ := isNaN_eq_false_iff.1 hz
    -- A third float has a place, which is above the first or else below the second.
    rcases lt_or_ge a c with hac | hca
    · exact Or.inl (less_iff.2 ⟨a, ha, c, hc, hac⟩)
    · exact Or.inr (less_iff.2 ⟨c, hc, b, hb, hca.trans_lt hlt⟩)

end TurtleCurves
