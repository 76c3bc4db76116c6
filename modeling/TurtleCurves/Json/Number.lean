/-!
# Number literals

A `Literal` is a number as it is written: a sign, the digits before the point, the digits after it
and an exponent.  Its value is an integer if it has neither point nor exponent and fits 64 bits.
Any other literal, and minus zero, is a double: of its digits as many are used as fit an unsigned
word of 64 bits, and the word is multiplied with or divided by one power of ten.  A literal whose
double would be infinite has no value.
-/

namespace TurtleCurves.Json

/-- A number literal. -/
structure Literal where
  negative : Bool
  /-- The digits before the point. -/
  whole : List Char
  /-- The digits after the point, if there is one. -/
  fraction : Option (List Char)
  /-- Whether the exponent is negative, and its digits, if there is one. -/
  exponent : Option (Bool × List Char)
deriving DecidableEq, Repr

/-- The value of a literal. -/
inductive NumberValue
  | integer (value : Int)
  | real (value : Float)
  | overflow

/-- The value of a decimal digit. -/
def digitValue (c : Char) : Nat :=
  c.toNat - 48

/-- The number that a list of digits writes. -/
def digitsValue (digits : List Char) : Nat :=
  digits.foldl (fun n c => n * 10 + digitValue c) 0

/-- The largest whole number of 64 bits without sign. -/
def wordMax : Nat :=
  0xFFFFFFFFFFFFFFFF

/-- The size of the least whole number of 64 bits with sign. -/
def negativeMax : Nat :=
  0x8000000000000000

/-- Appends digits to a word while it fits 64 bits.  The answer is the word and how many digits
were left over. -/
def takeDigits : Nat → List Char → Nat × Nat
  | n, [] => (n, 0)
  | n, c :: cs =>
      if n * 10 + digitValue c ≤ wordMax then takeDigits (n * 10 + digitValue c) cs
      else (n, cs.length + 1)

/-- The double nearest to a power of ten with an exponent of at most 308. -/
def powerOfTen (n : Nat) : Float :=
  Float.ofScientific 1 false n

/-- Divides by `10 ^ n`, in several steps if the power is too large for one. -/
def divideByPower (x : Float) (n : Nat) : Float :=
  if n ≤ 308 then x / powerOfTen n
  else if x == 0 then x
  else divideByPower (x / powerOfTen 308) (n - 308)
termination_by n

/-- Multiplies by `10 ^ n`; `none` if the product is infinite. -/
def multiplyByPower (x : Float) (n : Nat) : Option Float :=
  if n ≤ 308 then
    let product := x * powerOfTen n
    if product.isInf then none else some product
  else if x == 0 then some x
  else none

/-- The double `word * 10 ^ exponent`. -/
def scaleWord (word : Nat) (exponent : Int) : Option Float :=
  let x := word.toUInt64.toFloat
  if 0 ≤ exponent then multiplyByPower x exponent.toNat
  else some (divideByPower x (-exponent).toNat)

namespace Literal

/-- The exponent of a literal. -/
def exponentValue (l : Literal) : Int :=
  match l.exponent with
  | none => 0
  | some (false, digits) => digitsValue digits
  | some (true, digits) => -(digitsValue digits : Int)

/-- The double of a literal without its sign. -/
def magnitude (l : Literal) : Option Float :=
  let whole := takeDigits 0 l.whole
  let fraction := takeDigits whole.1 (l.fraction.getD [])
  let used := (l.fraction.getD []).length - fraction.2
  scaleWord fraction.1 (l.exponentValue + whole.2 - used)

/-- The value of a literal as a double. -/
def realValue (l : Literal) : NumberValue :=
  match l.magnitude with
  | none => .overflow
  | some x => .real (if l.negative then -x else x)

/-- The value of a literal. -/
def value (l : Literal) : NumberValue :=
  match l.fraction, l.exponent with
  | none, none =>
      let n := digitsValue l.whole
      if l.negative then
        if 1 ≤ n ∧ n ≤ negativeMax then .integer (-(n : Int)) else l.realValue
      else if n ≤ wordMax then .integer n else l.realValue
  | _, _ => l.realValue

end Literal

/-- Splits off the digits at the beginning of a text. -/
def spanDigits (cs : List Char) : List Char × List Char :=
  (cs.takeWhile Char.isDigit, cs.dropWhile Char.isDigit)

/-- Reads a point and the digits after it, of which there must be one. -/
def readFraction : List Char → Option (Option (List Char) × List Char)
  | '.' :: cs =>
      match spanDigits cs with
      | ([], _) => none
      | (digits, rest) => some (some digits, rest)
  | cs => some (none, cs)

/-- Splits off the sign of an exponent. -/
def readSign : List Char → Bool × List Char
  | '-' :: cs => (true, cs)
  | '+' :: cs => (false, cs)
  | cs => (false, cs)

/-- Reads an exponent, which must have a digit. -/
def readExponent : List Char → Option (Option (Bool × List Char) × List Char)
  | c :: cs =>
      if c = 'e' ∨ c = 'E' then
        match spanDigits (readSign cs).2 with
        | ([], _) => none
        | (digits, rest) => some (some ((readSign cs).1, digits), rest)
      else some (none, c :: cs)
  | [] => some (none, [])

/-- Splits off a minus sign. -/
def readMinus : List Char → Bool × List Char
  | '-' :: cs => (true, cs)
  | cs => (false, cs)

/-- Reads the digits before the point: at least one, and no needless zero in front. -/
def readWhole (cs : List Char) : Option (List Char × List Char) :=
  match spanDigits cs with
  | ([], _) => none
  | ('0' :: _ :: _, _) => none
  | (digits, rest) => some (digits, rest)

/-- Reads the number literal at the beginning of a text. -/
def readLiteral (cs : List Char) : Option (Literal × List Char) :=
  (readWhole (readMinus cs).2).bind fun whole =>
    (readFraction whole.2).bind fun fraction =>
      (readExponent fraction.2).map fun exponent =>
        (⟨(readMinus cs).1, whole.1, fraction.1, exponent.1⟩, exponent.2)

/-- Splitting off digits loses nothing. -/
theorem spanDigits_length (cs : List Char) :
    (spanDigits cs).1.length + (spanDigits cs).2.length = cs.length := by
  rw [← List.length_append]
  exact congrArg List.length List.takeWhile_append_dropWhile

theorem readFraction_length {cs rest : List Char} {fraction : Option (List Char)}
    (h : readFraction cs = some (fraction, rest)) : rest.length ≤ cs.length := by
  unfold readFraction at h
  split at h
  · next cs =>
    have hlen := spanDigits_length cs
    split at h
    · simp at h
    · next hs =>
      rw [hs] at hlen
      simp only [Option.some.injEq, Prod.mk.injEq] at h
      simp only [List.length_cons, ← h.2] at hlen ⊢
      omega
  · simp only [Option.some.injEq, Prod.mk.injEq] at h
    exact Nat.le_of_eq (congrArg List.length h.2.symm)

theorem readSign_length (cs : List Char) : (readSign cs).2.length ≤ cs.length := by
  unfold readSign
  split <;> simp

theorem readExponent_length {cs rest : List Char} {exponent : Option (Bool × List Char)}
    (h : readExponent cs = some (exponent, rest)) : rest.length ≤ cs.length := by
  unfold readExponent at h
  split at h
  · next c cs =>
    have hlen := spanDigits_length (readSign cs).2
    have hsign := readSign_length cs
    split at h
    · split at h
      · simp at h
      · next hs =>
        rw [hs] at hlen
        simp only [Option.some.injEq, Prod.mk.injEq] at h
        simp only [List.length_cons, ← h.2] at hlen ⊢
        omega
    · simp only [Option.some.injEq, Prod.mk.injEq] at h
      exact Nat.le_of_eq (congrArg List.length h.2.symm)
  · simp only [Option.some.injEq, Prod.mk.injEq] at h
    exact Nat.le_of_eq (congrArg List.length h.2.symm)

theorem readMinus_length (cs : List Char) : (readMinus cs).2.length ≤ cs.length := by
  unfold readMinus
  split <;> simp

/-- Reading the digits before the point uses up at least one of them. -/
theorem readWhole_length {cs rest digits : List Char} (h : readWhole cs = some (digits, rest)) :
    rest.length < cs.length := by
  have hlen := spanDigits_length cs
  unfold readWhole at h
  split at h
  · simp at h
  · simp at h
  · next ds r hne _ hs =>
    rw [hs] at hlen
    simp only [Option.some.injEq, Prod.mk.injEq] at h
    have hpos : 0 < ds.length := List.length_pos_iff.2 hne
    simp only [← h.2] at hlen ⊢
    omega

/-- Reading a literal uses up at least one character. -/
theorem readLiteral_length {cs rest : List Char} {l : Literal}
    (h : readLiteral cs = some (l, rest)) : rest.length < cs.length := by
  simp only [readLiteral, Option.bind_eq_some_iff, Option.map_eq_some_iff, Prod.mk.injEq] at h
  obtain ⟨⟨whole, r₁⟩, hw, ⟨fraction, r₂⟩, hf, ⟨exponent, r₃⟩, he, _, rfl⟩ := h
  have h₀ := readMinus_length cs
  have h₁ := readWhole_length hw
  have h₂ := readFraction_length hf
  have h₃ := readExponent_length he
  change r₃.length < cs.length
  simp only at h₂ h₃
  omega

end TurtleCurves.Json
