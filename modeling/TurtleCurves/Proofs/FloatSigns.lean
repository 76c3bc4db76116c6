import Mathlib
import TurtleCurves.Geometry.Scalar

/-!
# Signs of floats

A turn is a product of an amount, a factor and a sign, rounded after each multiplication. Rounding
looks at the size of a product only, so a sign can be moved from one factor to another without a bit
of the product changing. This is `NegMul`, and it is all that is ever used of the numbers when turns
are mirrored.

For floats it comes down to one fact about their encoding: changing the sign of what is packed into
bits changes the sign of what is unpacked from them (`unpack_pack_neg`). A NaN has no sign, before
and after.
-/

namespace TurtleCurves

open Float.Model

/-- A sign can be moved from one factor of a product of three to the one before it. -/
class NegMul (α : Type) [Scalar α] : Prop where
  mul_mul_neg : ∀ a s t : α, a * s * -t = a * -s * t

/-! ## Unpacked floats -/

/-- Rounding keeps the sign. -/
theorem roundWithAccuracy_neg (spec : Format) (s : UnpackedFloat.Sign) (m : ℕ) (e : ℤ)
    (accuracy : UnpackedFloat.Accuracy) :
    UnpackedFloat.roundWithAccuracy spec (-s) m e accuracy =
      (UnpackedFloat.roundWithAccuracy spec s m e accuracy).neg := by
  simp only [UnpackedFloat.roundWithAccuracy]
  split <;> rfl

/-- A sign can be taken out of a product from the right. -/
theorem sign_mul_neg (s t : UnpackedFloat.Sign) : s * -t = -(s * t) := by
  cases s <;> cases t <;> rfl

theorem sign_neg_mul (s t : UnpackedFloat.Sign) : -s * t = -(s * t) := by
  cases s <;> cases t <;> rfl

/-- The sign of a product is that of its second factor. -/
theorem unpacked_mul_neg (spec : Format) (a b : UnpackedFloat) :
    a.mul spec b.neg = (a.mul spec b).neg := by
  cases a <;> cases b <;>
    simp only [UnpackedFloat.mul, UnpackedFloat.neg, sign_mul_neg, roundWithAccuracy_neg]

/-- The sign of a product is that of its first factor. -/
theorem unpacked_neg_mul (spec : Format) (a b : UnpackedFloat) :
    a.neg.mul spec b = (a.mul spec b).neg := by
  cases a <;> cases b <;>
    simp only [UnpackedFloat.mul, UnpackedFloat.neg, sign_neg_mul, roundWithAccuracy_neg]

/-! ## Packed floats -/

/-- Bits that differ in the sign are unpacked to floats that differ in the sign. The largest
exponent belongs to a NaN unless the mantissa vanishes, and a NaN has no sign. -/
theorem unpack_packComponents_neg {spec : Format} (s : UnpackedFloat.Sign)
    (e : BitVec spec.exponentBits) (m : BitVec spec.mantissaBitsWithoutImplicit) :
    UnpackedFloat.unpack spec (UnpackedFloat.packComponents spec (-s) e m) =
      (UnpackedFloat.unpack spec (UnpackedFloat.packComponents spec s e m)).neg := by
  simp only [UnpackedFloat.unpack, UnpackedFloat.unpackExponent_packComponents,
    UnpackedFloat.unpackMantissa_packComponents, UnpackedFloat.unpackSign_packComponents,
    UnpackedFloat.Sign.ofBitVec_toBitVec]
  -- By the exponent: the largest one is an infinity or a NaN, the least one a zero or a subnormal.
  split
  · split <;> rfl
  · split
    · split <;> rfl
    · rfl

/-- Packing changes no sign. -/
theorem unpack_pack_neg (u : UnpackedFloat) : (pack u.neg).unpack = (pack u).unpack.neg := by
  cases u with
  | notANumber => exact UnpackedFloat.unpack_packedNaN
  | infinity s => exact unpack_packComponents_neg s _ _
  | zero s => exact unpack_packComponents_neg s _ _
  | finite s m e hm =>
    show UnpackedFloat.unpack _ (UnpackedFloat.pack _ (.finite (-s) m e hm)) =
      (UnpackedFloat.unpack _ (UnpackedFloat.pack _ (.finite s m e hm))).neg
    -- What is packed depends on the sign in the sign bit only, in each range of exponents.
    rw [UnpackedFloat.pack, UnpackedFloat.pack]
    dsimp only
    split
    · exact unpack_packComponents_neg s _ _
    · split
      · exact unpack_packComponents_neg s _ _
      · exact unpack_packComponents_neg s _ _

/-- A float is packed to the bits that it was unpacked from. -/
theorem pack_unpack_model (m : Float.Model) : pack m.unpack = m := by
  cases m with
  | mk bits valid =>
    simp only [pack, Float.Model.unpack, UnpackedFloat.pack_unpack_of_valid valid]

/-! ## Floats -/

/-- Negating a float negates what it is unpacked to. -/
theorem float_unpack_neg (x : Float) : (-x).toModel.unpack = x.toModel.unpack.neg := by
  show (pack x.toModel.unpack.neg).unpack = _
  rw [unpack_pack_neg, pack_unpack_model]

/-- A float times a negated one is the negated product, to the last bit. -/
theorem float_mul_neg (x y : Float) : x * -y = -(x * y) := by
  show Float.ofModel (pack (x.toModel.unpack.mul _ (-y).toModel.unpack)) =
    .ofModel (pack (pack (x.toModel.unpack.mul _ y.toModel.unpack)).unpack.neg)
  -- The sign goes out of the product before rounding and through the packing behind it.
  rw [float_unpack_neg, unpacked_mul_neg, ← unpack_pack_neg, pack_unpack_model]

theorem float_neg_mul (x y : Float) : -x * y = -(x * y) := by
  show Float.ofModel (pack ((-x).toModel.unpack.mul _ y.toModel.unpack)) =
    .ofModel (pack (pack (x.toModel.unpack.mul _ y.toModel.unpack)).unpack.neg)
  rw [float_unpack_neg, unpacked_neg_mul, ← unpack_pack_neg, pack_unpack_model]

instance negMul_float : NegMul Float where
  mul_mul_neg a s t := by
    rw [float_mul_neg, float_mul_neg, float_neg_mul]

end TurtleCurves
