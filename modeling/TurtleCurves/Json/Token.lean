import TurtleCurves.Json.Basic
import TurtleCurves.Json.Number

/-!
# Tokens of a JSON text

A text is cut into tokens from left to right.  Where no token can be read, the list of tokens ends
with `Token.malformed`; a text that merely breaks off ends without it.

* `readString` reads the pieces of a string literal up to its closing quote, `pairPieces` puts
  surrogate pairs together.
* `nextToken` reads one token, `tokens` all of them.
-/

namespace TurtleCurves.Json

/-- A token: a scalar value or a mark of punctuation. -/
inductive Token
  | scalar (value : Reading)
  | openArray
  | closeArray
  | openObject
  | closeObject
  | comma
  | colon
  | malformed

/-- JSON's own blanks: space, line feed, carriage return and tab. -/
def isJsonBlank (c : Char) : Bool :=
  c = ' ' || c = '\n' || c = '\r' || c = '\t'

/-- One piece of a string literal: a character, or the code unit of a `\u` escape. -/
inductive Piece
  | char (value : Char)
  | codeUnit (value : Nat)

/-- The value of a hexadecimal digit. -/
def hexValue? (c : Char) : Option Nat :=
  if '0' ≤ c ∧ c ≤ '9' then some (c.toNat - 48)
  else if 'a' ≤ c ∧ c ≤ 'f' then some (c.toNat - 87)
  else if 'A' ≤ c ∧ c ≤ 'F' then some (c.toNat - 55)
  else none

/-- The code unit written with four hexadecimal digits. -/
def codeUnit? (a b c d : Char) : Option Nat := do
  let a ← hexValue? a
  let b ← hexValue? b
  let c ← hexValue? c
  let d ← hexValue? d
  return ((a * 16 + b) * 16 + c) * 16 + d

/-- The character that a backslash and one more character stand for. -/
def simpleEscape? : Char → Option Char
  | '\u0022' => some '\u0022'
  | '\\' => some '\\'
  | '/' => some '/'
  | 'b' => some '\x08'
  | 'f' => some '\x0c'
  | 'n' => some '\n'
  | 'r' => some '\r'
  | 't' => some '\t'
  | _ => none

/-- Reads a string literal after its opening quote.  The pieces come out newest first in front of
`pieces`; control characters and unknown escapes are faults. -/
def readString : List Char → List Piece → Option (List Piece × List Char)
  | [], _ => none
  | '\u0022' :: cs, pieces => some (pieces, cs)
  | '\\' :: 'u' :: a :: b :: c :: d :: cs, pieces =>
      match codeUnit? a b c d with
      | some n => readString cs (.codeUnit n :: pieces)
      | none => none
  | '\\' :: c :: cs, pieces =>
      match simpleEscape? c with
      | some e => readString cs (.char e :: pieces)
      | none => none
  | c :: cs, pieces =>
      if c.toNat < 0x20 ∨ c = '\\' then none else readString cs (.char c :: pieces)

/-- The unit is the first half of a surrogate pair. -/
def isHighSurrogate (n : Nat) : Bool :=
  0xD800 ≤ n && n < 0xDC00

/-- The unit is the second half of a surrogate pair. -/
def isLowSurrogate (n : Nat) : Bool :=
  0xDC00 ≤ n && n < 0xE000

/-- The code point of a surrogate pair. -/
def pairValue (high low : Nat) : Nat :=
  0x10000 + (high - 0xD800) * 0x400 + (low - 0xDC00)

/-- The characters that the pieces of a string stand for, in front of which `done` stands in
reverse; `none` if half of a surrogate pair stands alone. -/
def pairPieces : List Piece → List Char → Option (List Char)
  | [], done => some done.reverse
  | .char c :: ps, done => pairPieces ps (c :: done)
  | .codeUnit high :: .codeUnit low :: ps, done =>
      if isHighSurrogate high then
        if isLowSurrogate low then pairPieces ps (Char.ofNat (pairValue high low) :: done)
        else none
      else if isLowSurrogate high then none
      else pairPieces (.codeUnit low :: ps) (Char.ofNat high :: done)
  | .codeUnit n :: ps, done =>
      if isHighSurrogate n || isLowSurrogate n then none
      else pairPieces ps (Char.ofNat n :: done)
termination_by ps => ps.length

/-- What a string literal with the given pieces, in order, says. -/
def stringReading (pieces : List Piece) : Reading :=
  match pairPieces pieces [] with
  | some cs => .text (String.ofList cs)
  | none => .unpaired

/-- What a number literal says. -/
def numberReading (l : Literal) : Reading :=
  match l.value with
  | .integer n => .integer n
  | .real x => .real x
  | .overflow => .overflow

/-- Reads the token at the beginning of a text that begins with no blank. -/
def nextToken : List Char → Token × List Char
  | [] => (.malformed, [])
  | '[' :: cs => (.openArray, cs)
  | ']' :: cs => (.closeArray, cs)
  | '\x7b' :: cs => (.openObject, cs)
  | '\x7d' :: cs => (.closeObject, cs)
  | ',' :: cs => (.comma, cs)
  | ':' :: cs => (.colon, cs)
  | 'n' :: 'u' :: 'l' :: 'l' :: cs => (.scalar .null, cs)
  | 't' :: 'r' :: 'u' :: 'e' :: cs => (.scalar (.bool true), cs)
  | 'f' :: 'a' :: 'l' :: 's' :: 'e' :: cs => (.scalar (.bool false), cs)
  | '\u0022' :: cs =>
      match readString cs [] with
      | some (pieces, rest) => (.scalar (stringReading pieces.reverse), rest)
      | none => (.malformed, [])
  | cs =>
      match readLiteral cs with
      | some (l, rest) => (.scalar (numberReading l), rest)
      | none => (.malformed, [])

/-- Reading a string uses up at least its closing quote. -/
theorem readString_length {cs rest : List Char} {pieces all : List Piece}
    (h : readString cs pieces = some (all, rest)) : rest.length < cs.length := by
  fun_induction readString cs pieces with
  | case1 | case4 | case6 | case7 => simp at h
  | case2 => simp_all
  | case3 _ _ _ _ _ _ _ _ ih | case5 _ _ _ _ _ _ ih | case8 _ _ _ _ _ _ _ ih =>
    have := ih h
    simp only [List.length_cons]
    omega

/-- Reading a token uses up at least one character. -/
theorem nextToken_length {cs : List Char} (hne : cs ≠ []) :
    (nextToken cs).2.length < cs.length := by
  fun_cases nextToken cs with
  | case1 => contradiction
  | case11 cs pieces rest h =>
    have := readString_length h
    simp only [List.length_cons]
    omega
  | case13 cs _ _ _ _ _ _ _ _ _ _ _ l rest h => exact readLiteral_length h
  | case14 => simpa [List.length_pos_iff] using hne
  | _ =>
    simp only [List.length_cons, List.length_nil]
    omega

/-- The tokens of a text. -/
def tokens (cs : List Char) : List Token :=
  if _h : cs.dropWhile isJsonBlank = [] then []
  else
    (nextToken (cs.dropWhile isJsonBlank)).1 :: tokens (nextToken (cs.dropWhile isJsonBlank)).2
termination_by cs.length
decreasing_by
  have h₁ := nextToken_length _h
  have h₂ := (List.dropWhile_sublist isJsonBlank (l := cs)).length_le
  omega

end TurtleCurves.Json
