import TurtleCurves.Geometry.Scalar

/-!
# Equality of floats

The comparison `==` of floats is not reflexive, since a NaN equals nothing, and it equates the two
zeros. It is still symmetric and transitive: it compares what `equalityKey` keeps of a float, and
fails where nothing is kept.
-/

namespace TurtleCurves

open Float.Model

/-- What equality sees of a float: nothing of a NaN, no sign of a zero, and all of the others. -/
def equalityKey : UnpackedFloat → Option (Option (UnpackedFloat.Sign × Option (Int × Nat)))
  | .notANumber => none
  | .zero _ => some none
  | .infinity sign => some (some (sign, none))
  | .finite sign mantissa exponent _ => some (some (sign, some (exponent, mantissa)))

/-- Two floats compare equal if the same is kept of both and something is kept. -/
theorem compare_eq_some_eq_iff (a b : UnpackedFloat) :
    a.compare b = some .eq ↔ equalityKey a = equalityKey b ∧ equalityKey a ≠ none := by
  -- Only floats of one class can be equal; within a class the sign, the exponent and the mantissa
  -- are compared.
  cases a with
  | notANumber =>
    have hcompare : UnpackedFloat.compare .notANumber b = none := rfl
    rw [hcompare]
    exact iff_of_false (Option.some_ne_none _).symm fun h => h.2 rfl
  | zero s =>
    cases b with
    | finite t n f _ | infinity t =>
      cases t <;> dsimp only [UnpackedFloat.compare, equalityKey] <;> simp
    | _ => dsimp only [UnpackedFloat.compare, equalityKey]; simp
  | infinity s =>
    cases b with
    | infinity t =>
      cases s <;> cases t <;> dsimp only [UnpackedFloat.compare, equalityKey] <;> simp <;> decide
    | _ => cases s <;> dsimp only [UnpackedFloat.compare, equalityKey] <;> simp
  | finite s m e _ =>
    cases b with
    | infinity t => cases t <;> dsimp only [UnpackedFloat.compare, equalityKey] <;> simp
    | finite t n f _ =>
      cases s <;> cases t <;> dsimp only [UnpackedFloat.compare, equalityKey] <;>
        simp [Ordering.then_eq_eq]
    | _ => cases s <;> dsimp only [UnpackedFloat.compare, equalityKey] <;> simp

/-- Floats are equal if equality sees the same of both and neither is a NaN. -/
theorem float_beq_iff (x y : Float) :
    (x == y) = true ↔ equalityKey x.toModel.unpack = equalityKey y.toModel.unpack ∧
      equalityKey x.toModel.unpack ≠ none := by
  rw [← compare_eq_some_eq_iff]
  show (x.toModel.unpack.compare y.toModel.unpack == some .eq) = true ↔ _
  exact beq_iff_eq

instance partialEquivBEq_float : PartialEquivBEq Float where
  symm {x y} h := by
    obtain ⟨hkey, hne⟩ := (float_beq_iff x y).1 h
    exact (float_beq_iff y x).2 ⟨hkey.symm, hkey ▸ hne⟩
  trans {x y z} hxy hyz := by
    obtain ⟨hkey, hne⟩ := (float_beq_iff x y).1 hxy
    obtain ⟨hkey', -⟩ := (float_beq_iff y z).1 hyz
    exact (float_beq_iff x z).2 ⟨hkey.trans hkey', hne⟩

end TurtleCurves
