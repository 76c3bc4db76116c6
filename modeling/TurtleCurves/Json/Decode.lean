import TurtleCurves.Json.Document
import TurtleCurves.Json.Problem

/-!
# Decoding readings

A decoder turns a reading into a value or names the first problem in it.  Decoders of containers
follow the order of the text, and a container that is not closed is a problem only after all that
was read of it.
-/

namespace TurtleCurves.Json

/-- A way to read values of type `τ`. -/
abbrev Decoder (τ : Type) :=
  Reading → Except Problem τ

/-- A failure by a mismatch. -/
def mismatch {τ : Type} (cause : Mismatch) : Except Problem τ :=
  .error (.mismatch cause)

/-- The failure for a value of the wrong type.  What is no value at all is malformed. -/
def wrongType {τ : Type} (wanted : Wanted) : Reading → Except Problem τ
  | .null => mismatch (.wrongType .null wanted)
  | .bool b => mismatch (.wrongType (.bool b) wanted)
  | .integer n => mismatch (.wrongType (.integer n) wanted)
  | .real x => mismatch (.wrongType (.real x) wanted)
  | .text s => mismatch (.wrongType (.text s) wanted)
  | .array _ _ => mismatch (.wrongType .sequence wanted)
  | .object _ _ => mismatch (.wrongType .map wanted)
  | .overflow | .unpaired | .malformed => .error .malformed

/-- Strings. -/
def decodeText : Decoder String
  | .text s => .ok s
  | r => wrongType .text r

/-- The double nearest to a whole number of at most 64 bits. -/
def floatOfInteger (n : Int) : Float :=
  if n < 0 then -n.natAbs.toUInt64.toFloat else n.natAbs.toUInt64.toFloat

/-- Doubles; a whole number is one too. -/
def decodeFloat : Decoder Float
  | .integer n => .ok (floatOfInteger n)
  | .real x => .ok x
  | r => wrongType .float r

/-- Whole numbers of 64 bits with sign. -/
def decodeInt64 : Decoder Int64
  | .integer n =>
      if -(negativeMax : Int) ≤ n ∧ n < negativeMax then .ok (Int64.ofInt n)
      else mismatch (.outOfRange n .int64)
  | r => wrongType .int64 r

/-- Whole numbers of 64 bits without sign. -/
def decodeUInt64 : Decoder UInt64
  | .integer n =>
      if 0 ≤ n ∧ n ≤ wordMax then .ok (UInt64.ofNat n.toNat)
      else mismatch (.outOfRange n .uint64)
  | r => wrongType .uint64 r

/-- A value or `null`. -/
def decodeOption {τ : Type} (decode : Decoder τ) : Decoder (Option τ)
  | .null => .ok none
  | r => (decode r).map some

/-- Lists of any length. -/
def decodeList {τ : Type} (decode : Decoder τ) : Decoder (List τ)
  | .array items closed => do
      let values ← items.mapM decode
      if closed then .ok values else .error .malformed
  | r => wrongType .sequence r

/-- Reads the next of `count` numbers, `index` of which have been read. -/
def decodeNumbersFrom (count : Nat) (closed : Bool) :
    Nat → Nat → List Reading → Except Problem (List Float)
  | 0, _, [] => if closed then .ok [] else .error .malformed
  | 0, _, _ :: _ => .error .malformed
  | _ + 1, index, [] =>
      if closed then mismatch (.wrongLength index (.numbers count)) else .error .malformed
  | n + 1, index, r :: rs => do
      let x ← decodeFloat r
      let xs ← decodeNumbersFrom count closed n (index + 1) rs
      return x :: xs

/-- Rows of exactly `count` numbers. -/
def decodeNumbers (count : Nat) : Decoder (List Float)
  | .array items closed => decodeNumbersFrom count closed count 0 items
  | r => wrongType (.numbers count) r

/-- Maps from names to values, in the order of the text. -/
def decodeMembers {τ : Type} (decode : Decoder τ) :
    List (Option String × Reading) → Except Problem (List (String × τ))
  | [] => .ok []
  | (some name, r) :: ms => do
      let value ← decode r
      let rest ← decodeMembers decode ms
      return (name, value) :: rest
  | (none, _) :: _ => .error .malformed

/-- Maps from names to values; a name may be repeated. -/
def decodeMap {τ : Type} (decode : Decoder τ) : Decoder (List (String × τ))
  | .object members closed => do
      let entries ← decodeMembers decode members
      if closed then .ok entries else .error .malformed
  | r => wrongType .map r

/-- Reads a document.  Nothing but blanks may follow the value. -/
def decodeDocument {τ : Type} (decode : Decoder τ) (text : String) : Except Problem τ := do
  let document := Document.ofText text
  let value ← decode document.root
  if document.clean then .ok value else .error .malformed

end TurtleCurves.Json
