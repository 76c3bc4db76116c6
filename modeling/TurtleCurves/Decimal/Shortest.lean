/-!
# Shortest decimals

Every finite double is read back from many decimals: all those in the interval of reals that round
to it.  `shortest` finds the one with the fewest digits, and of those with the fewest digits the one
nearest to the double.

The double is `m * 2 ^ q` with whole `m` and `q`.  The interval reaches half a unit of `m` to both
sides, only a quarter below a power of two, and its ends belong to it when `m` is even.  On the grid
of decimals with a given number of digits only the two neighbours of the double have to be tried,
because the interval contains the double.  All comparisons are between fractions of whole numbers.
-/

namespace TurtleCurves

/-- The positive decimal `digits * 10 ^ exponent`. -/
structure Decimal where
  digits : Nat
  exponent : Int
deriving DecidableEq, Repr

/-- A positive double `mantissa * 2 ^ exponent`; below a power of two the doubles are twice as
dense as above it. -/
structure Dyadic where
  mantissa : Nat
  exponent : Int
  isPower : Bool
deriving DecidableEq, Repr

/-- The weight of the leading digit of a mantissa, `2 ^ 52`, which a double does not store. -/
def hiddenBit : Nat :=
  0x10000000000000

/-- The magnitude of a finite double other than zero. -/
def Dyadic.ofFloat (x : Float) : Dyadic :=
  let bits := x.toBits.toNat
  let fraction : Nat := bits % hiddenBit
  let biased : Nat := bits / hiddenBit % 2048
  if biased = 0 then ⟨fraction, -1074, false⟩
  else ⟨hiddenBit + fraction, (biased : Int) - 1075, fraction = 0 && biased ≠ 1⟩

/-- The number of decimal digits of a number. -/
def digitCount (n : Nat) : Nat :=
  (Nat.toDigits 10 n).length

/-- A double and the interval of reals that round to it, over a common denominator. -/
structure Rounding where
  /-- The double times `unit`. -/
  value : Nat
  /-- The lower end of the interval times `unit`. -/
  low : Nat
  /-- The upper end of the interval times `unit`. -/
  high : Nat
  unit : Nat
  /-- The ends of the interval belong to it. -/
  closed : Bool

/-- The interval of a double; a quarter of its unit divides both ends. -/
def Dyadic.rounding (b : Dyadic) : Rounding :=
  let up := Nat.pow 2 (b.exponent - 2).toNat
  { value := 4 * b.mantissa * up
    low := (4 * b.mantissa - if b.isPower then 1 else 2) * up
    high := (4 * b.mantissa + 2) * up
    unit := Nat.pow 2 (2 - b.exponent).toNat
    closed := b.mantissa % 2 = 0 }

namespace Rounding

/-- The number of digits before the point, or minus the number of zeros after it: the `k` for which
the double lies in `[10 ^ (k - 1), 10 ^ k)`. -/
def magnitude (s : Rounding) : Int :=
  let k : Int := digitCount s.value - digitCount s.unit
  if s.unit * Nat.pow 10 k.toNat ≤ s.value * Nat.pow 10 (-k).toNat then k + 1 else k

/-- The same double in units of `10 ^ e`. -/
def inUnits (s : Rounding) (e : Int) : Rounding :=
  let up := Nat.pow 10 (-e).toNat
  { s with
    value := s.value * up
    low := s.low * up
    high := s.high * up
    unit := s.unit * Nat.pow 10 e.toNat }

/-- The whole number `n` lies in the interval. -/
def contains (s : Rounding) (n : Nat) : Bool :=
  if s.closed then s.low ≤ n * s.unit && n * s.unit ≤ s.high
  else s.low < n * s.unit && n * s.unit < s.high

/-- The whole number in the interval that is nearest to the double, if there is one; of two equally
near the even one. -/
def nearest? (s : Rounding) : Option Nat :=
  let n := s.value / s.unit
  let rest := s.value % s.unit
  let upper := 2 * rest > s.unit || (2 * rest = s.unit && n % 2 = 1)
  match s.contains n, s.contains (n + 1) with
  | true, true => some (if upper then n + 1 else n)
  | true, false => some n
  | false, true => some (n + 1)
  | false, false => none

end Rounding

/-- A decimal without zeros at the end of its digits. -/
def Decimal.dropZeros (d : Decimal) : Decimal :=
  if d.digits = 0 then d
  else if d.digits % 10 = 0 then dropZeros ⟨d.digits / 10, d.exponent + 1⟩
  else d
termination_by d.digits
decreasing_by
  exact Nat.div_lt_self (by omega) (by omega)

/-- Tries grids of more and more digits, starting with `n`, at most `fuel` of them. -/
def Decimal.shortestFrom (s : Rounding) (k : Int) : Nat → Nat → Option Decimal
  | 0, _ => none
  | fuel + 1, n =>
      match (s.inUnits (k - n)).nearest? with
      | some digits => some (Decimal.dropZeros ⟨digits, k - n⟩)
      | none => shortestFrom s k fuel (n + 1)

/-- The shortest decimal that reads back as the given double.  Seventeen digits always do. -/
def Decimal.shortest (b : Dyadic) : Decimal :=
  let s := b.rounding
  (shortestFrom s s.magnitude 17 1).getD ⟨0, 0⟩

end TurtleCurves
