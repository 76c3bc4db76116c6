/-!
# Symbols and words

A symbol is one Unicode code point and a word is a finite list of symbols.  Counts and positions
are in symbols; only `utf8Length` speaks of bytes.
-/

namespace TurtleCurves

/-- One letter of an alphabet: any Unicode code point. -/
abbrev Symbol := Char

/-- A finite sequence of symbols. -/
abbrev Word := List Symbol

namespace Word

/-- A word as a string. -/
def text (w : Word) : String :=
  String.ofList w

/-- The number of bytes of a word written in UTF-8. -/
def utf8Length (w : Word) : Nat :=
  w.foldl (fun n c => n + c.utf8Size) 0

/-- The word `w` written `n` times; an empty word stays empty at no cost. -/
def times (n : Nat) (w : Word) : Word :=
  if w.isEmpty then [] else (List.replicate n w).flatten

/-- The bytes that were counted before are added to those of the word. -/
private theorem foldl_utf8Size (w : Word) (n : Nat) :
    w.foldl (fun n c => n + c.utf8Size) n = n + utf8Length w := by
  unfold utf8Length
  induction w generalizing n with
  | nil => rfl
  | cons c w ih => rw [List.foldl_cons, List.foldl_cons, ih (n + _), ih (0 + _)]; omega

@[simp] theorem utf8Length_nil : utf8Length [] = 0 := rfl

@[simp] theorem utf8Length_cons (c : Symbol) (w : Word) :
    utf8Length (c :: w) = c.utf8Size + utf8Length w := by
  rw [utf8Length, List.foldl_cons, foldl_utf8Size, Nat.zero_add]

/-- The bytes of two parts add up. -/
theorem utf8Length_append (u v : Word) : utf8Length (u ++ v) = utf8Length u + utf8Length v := by
  induction u with
  | nil => simp
  | cons c u ih => simp [ih]; omega

/-- The bytes that a word is written as are as many as were counted. -/
theorem size_utf8Encode (w : Word) : w.utf8Encode.size = utf8Length w := by
  induction w with
  | nil => rfl
  | cons c w ih =>
    rw [List.utf8Encode_cons, ByteArray.size_append, ih, List.utf8Encode_singleton,
      List.size_toByteArray, String.length_utf8EncodeChar, utf8Length_cons]

/-- Writing a word `n` times is concatenating `n` copies of it. -/
theorem times_eq (n : Nat) (w : Word) : times n w = (List.replicate n w).flatten := by
  unfold times
  split
  · next h => simp [List.isEmpty_iff.1 h]
  · rfl

end Word

end TurtleCurves
