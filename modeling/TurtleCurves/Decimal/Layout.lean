import TurtleCurves.Decimal.Shortest

/-!
# Layout of decimals

How the digits of a decimal are laid out: positionally in a range of magnitudes, with an exponent
outside it.  A positional decimal always has a digit on both sides of the point.
-/

namespace TurtleCurves.Decimal

/-- The decisions of a number format.  The magnitude of a number is the exponent that its first
digit has. -/
structure Layout where
  /-- The least magnitude that is written positionally. -/
  leastPositional : Int
  /-- The greatest magnitude that is written positionally. -/
  greatestPositional : Int
deriving DecidableEq, Repr

namespace Layout

/-- The digits with the point after the first `places` of them, filled up with zeros. -/
def positional (digits : List Char) (places : Int) : String :=
  let zeros (n : Int) := List.replicate n.toNat '0'
  let whole := digits.take places.toNat ++ zeros (places - digits.length)
  let fraction := zeros (-places) ++ digits.drop places.toNat
  let filled (ds : List Char) := if ds.isEmpty then ['0'] else ds
  String.ofList (filled whole ++ '.' :: filled fraction)

/-- The digits with a signed exponent, which has no zeros in front; the point is left out if there
is only one digit. -/
def exponential (digits : List Char) (magnitude : Int) : String :=
  let mantissa := digits.take 1 ++ if digits.length ≤ 1 then [] else '.' :: digits.drop 1
  let sign := if magnitude < 0 then "-" else "+"
  String.ofList mantissa ++ "e" ++ sign ++ toString magnitude.natAbs

/-- A decimal in a layout. -/
def render (layout : Layout) (d : Decimal) : String :=
  let digits := Nat.toDigits 10 d.digits
  let magnitude := d.exponent + digits.length - 1
  if layout.leastPositional ≤ magnitude ∧ magnitude ≤ layout.greatestPositional then
    positional digits (magnitude + 1)
  else exponential digits magnitude

/-- A finite double in a layout, by its shortest decimal; both zeros keep their sign. -/
def renderFloat (layout : Layout) (x : Float) : String :=
  let negative := x.toBits >>> 63 = 1
  let text := if x == 0 then positional ['0'] 1 else layout.render (shortest (.ofFloat x))
  if negative then "-" ++ text else text

end Layout

end TurtleCurves.Decimal
