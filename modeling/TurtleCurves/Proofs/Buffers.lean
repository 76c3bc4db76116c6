import Mathlib.Algebra.GroupWithZero.Nat
import TurtleCurves.Grammar.Generation

/-!
# A step fills its buffer exactly

A step goes over a word twice. The first pass adds up how many bytes the next word will take
(`Grammar.stepBytes`), the second writes that word into a buffer with room for so many bytes
(`Grammar.rewriteInto`). Each pass asks on its own whether a symbol has a production, and each has
its own way with a symbol that stays: one counts the bytes of its encoding, the other writes them.
If the passes did not agree, nobody would notice, since a text without room is simply moved to where
there is more. A `Buffer` therefore counts how often that has happened.

## Shape of the proof

The second pass writes the image of each symbol, whichever branch it takes (`writeImage_eq`), so the
bytes in the buffer are those of the next word, whatever its capacity (`bytes_rewriteInto`). Whether
the text is moved depends on the capacity alone: `Buffer.write_cases` says so for one piece and
`rewriteInto_cases` for a whole word, both as an alternative between having room and being moved.
Hence there is just one capacity that is used up without a move, and the first pass finds it.
-/

namespace TurtleCurves

/-! ## Buffers -/

/-- How much room is made when there is none left, given the capacity so far and the number of bytes
needed. -/
structure Growth where
  capacity : Nat → Nat → Nat
  enough (old needed : Nat) : needed ≤ capacity old needed

/-- Twice the room, or as much as is needed. -/
def Growth.doubling : Growth where
  capacity old needed := max (2 * old) needed
  enough old needed := Nat.le_max_right (2 * old) needed

/-- A text that is being written in UTF-8. -/
structure Buffer where
  /-- What has been written. -/
  bytes : ByteArray
  /-- For how many bytes there is room. -/
  capacity : Nat
  /-- How often the text has been moved because it had no room. -/
  regrown : Nat
  fits : bytes.size ≤ capacity

namespace Buffer

/-- Nothing is written and there is room for `n` bytes. -/
def withCapacity (n : Nat) : Buffer :=
  ⟨.empty, n, 0, Nat.zero_le n⟩

/-- Writes a piece of text behind what is there, and moves it all if there is no room. -/
def write (growth : Growth) (b : Buffer) (piece : ByteArray) : Buffer :=
  if h : b.bytes.size + piece.size ≤ b.capacity then
    { b with
      bytes := b.bytes ++ piece
      fits := by rwa [ByteArray.size_append] }
  else
    { bytes := b.bytes ++ piece
      capacity := growth.capacity b.capacity (b.bytes.size + piece.size)
      regrown := b.regrown + 1
      fits := by rw [ByteArray.size_append]; exact growth.enough _ _ }

variable (growth : Growth) (b : Buffer) (piece : ByteArray)

/-- A piece is written behind what is there, moved or not. -/
theorem bytes_write : (b.write growth piece).bytes = b.bytes ++ piece := by
  rw [write]
  split <;> rfl

/-- A piece either has room, and then nothing but the bytes changes, or it has none, and then the
text is moved. -/
theorem write_cases :
    (b.bytes.size + piece.size ≤ b.capacity ∧ (b.write growth piece).capacity = b.capacity ∧
        (b.write growth piece).regrown = b.regrown) ∨
      (b.capacity < b.bytes.size + piece.size ∧
        (b.write growth piece).regrown = b.regrown + 1) := by
  rw [write]
  split
  · next h => exact Or.inl ⟨h, rfl, rfl⟩
  · next h => exact Or.inr ⟨Nat.lt_of_not_le h, rfl⟩

/-- There is no room left, and the text has never been moved. -/
structure UsedUp (b : Buffer) : Prop where
  full : b.bytes.size = b.capacity
  unmoved : b.regrown = 0

end Buffer

namespace Grammar

/-! ## The second pass -/

/-- Writes what becomes of a symbol: its body, if it has a production, or else its encoding. -/
def writeImage (g : Grammar) (growth : Growth) (b : Buffer) (symbol : Symbol) : Buffer :=
  match g.production? symbol with
  | some body => b.write growth (Word.text body).toByteArray
  | none => b.write growth (String.utf8EncodeChar symbol).toByteArray

/-- Writes the next word, symbol by symbol. -/
def rewriteInto (g : Grammar) (growth : Growth) (b : Buffer) (w : Word) : Buffer :=
  w.foldl (g.writeImage growth) b

variable (g : Grammar) (growth : Growth) (b : Buffer)

/-- Whether or not a symbol has a production, what is written is its image. -/
theorem writeImage_eq (c : Symbol) :
    g.writeImage growth b c = b.write growth (g.image c).utf8Encode := by
  rw [writeImage, image]
  cases g.production? c with
  | none => rw [Option.getD_none, List.utf8Encode_singleton]
  | some body => exact congrArg (b.write growth) String.toByteArray_ofList

/-- The image of the first symbol is written before all others. -/
theorem rewriteInto_cons (c : Symbol) (w : Word) :
    g.rewriteInto growth b (c :: w) =
      g.rewriteInto growth (b.write growth (g.image c).utf8Encode) w := by
  rw [rewriteInto, List.foldl_cons, writeImage_eq, rewriteInto]

/-- The bytes of the next word are written behind what is there, with or without room for them. -/
theorem bytes_rewriteInto (w : Word) :
    (g.rewriteInto growth b w).bytes = b.bytes ++ (g.step w).utf8Encode := by
  induction w generalizing b with
  | nil => exact ByteArray.append_empty.symm
  | cons c w ih =>
    rw [rewriteInto_cons, ih, Buffer.bytes_write, step_cons, List.utf8Encode_append,
      ByteArray.append_assoc]

/-- The next word either has room, and then the text stays where it is, or it has none, and then the
text is moved at least once on the way. -/
theorem rewriteInto_cases (w : Word) :
    (b.bytes.size + (g.step w).utf8Length ≤ b.capacity ∧
        (g.rewriteInto growth b w).capacity = b.capacity ∧
        (g.rewriteInto growth b w).regrown = b.regrown) ∨
      (b.capacity < b.bytes.size + (g.step w).utf8Length ∧
        b.regrown < (g.rewriteInto growth b w).regrown) := by
  induction w generalizing b with
  | nil => exact Or.inl ⟨b.fits, rfl, rfl⟩
  | cons c w ih =>
    have hsize : (b.write growth (g.image c).utf8Encode).bytes.size =
        b.bytes.size + (g.image c).utf8Length := by
      rw [Buffer.bytes_write, ByteArray.size_append, Word.size_utf8Encode]
    have hwrite := b.write_cases growth (g.image c).utf8Encode
    have hrest := ih (b.write growth (g.image c).utf8Encode)
    rw [hsize] at hrest
    rw [Word.size_utf8Encode] at hwrite
    rw [rewriteInto_cons, step_cons, Word.utf8Length_append]
    -- A symbol without room decides it, whatever follows; one with room leaves it to the rest.
    rcases hwrite with ⟨hroom, hcap, hstay⟩ | ⟨hfull, hmove⟩
    · rwa [hcap, hstay, Nat.add_assoc] at hrest
    · have hlater : b.regrown <
          (g.rewriteInto growth (b.write growth (g.image c).utf8Encode) w).regrown := by
        rcases hrest with ⟨-, -, hstay⟩ | ⟨-, hmore⟩ <;> omega
      exact Or.inr ⟨by omega, hlater⟩

/-! ## The two passes agree -/

/-- A buffer for `n` bytes holds the next word in the end; it is moved if it has too little room,
and otherwise keeps the room that it has. -/
theorem rewriteInto_withCapacity (n : Nat) (w : Word) :
    (g.rewriteInto growth (.withCapacity n) w).bytes = (Word.text (g.step w)).toByteArray ∧
      (g.rewriteInto growth (.withCapacity n) w).bytes.size = g.stepBytes w ∧
      (g.stepBytes w ≤ n ∧ (g.rewriteInto growth (.withCapacity n) w).capacity = n ∧
          (g.rewriteInto growth (.withCapacity n) w).regrown = 0 ∨
        n < g.stepBytes w ∧ 0 < (g.rewriteInto growth (.withCapacity n) w).regrown) := by
  have hbytes : (g.rewriteInto growth (.withCapacity n) w).bytes = (g.step w).utf8Encode := by
    rw [bytes_rewriteInto]
    exact ByteArray.empty_append
  have hcases := g.rewriteInto_cases growth (.withCapacity n) w
  rw [show (Buffer.withCapacity n).bytes.size = 0 from rfl, Nat.zero_add, ← stepBytes_eq] at hcases
  refine ⟨?_, ?_, hcases⟩
  · rw [hbytes, Word.text, String.toByteArray_ofList]
  · rw [hbytes, Word.size_utf8Encode, stepBytes_eq]

/-- The capacity that the first pass has added up is the only one that is used up. -/
theorem usedUp_rewriteInto_iff (n : Nat) (w : Word) :
    (g.rewriteInto growth (.withCapacity n) w).UsedUp ↔ n = g.stepBytes w := by
  -- If there was room, the capacity is still `n`; if not, the text was moved.
  obtain ⟨-, hsize, ⟨-, hcap, hstay⟩ | ⟨hfull, hmove⟩⟩ := g.rewriteInto_withCapacity growth n w
  · constructor
    · intro h
      rw [← hcap, ← h.full, hsize]
    · intro h
      exact ⟨by rw [hsize, hcap, h], hstay⟩
  · constructor
    · intro h
      rw [h.unmoved] at hmove
      exact absurd hmove (Nat.lt_irrefl 0)
    · intro h
      exact absurd h (Nat.ne_of_lt hfull)

/-- A beginning of a word asks for no more room than the word. -/
theorem stepBytes_take_le (n : Nat) (w : Word) : g.stepBytes (w.take n) ≤ g.stepBytes w := by
  have hsplit : g.step w = g.step (w.take n) ++ g.step (w.drop n) := by
    rw [← step_append, List.take_append_drop]
  rw [stepBytes_eq, stepBytes_eq, hsplit, Word.utf8Length_append]
  exact Nat.le_add_right _ _

/-- A symbol becomes as many symbols as its body has, or itself. -/
theorem length_image (c : Symbol) :
    (g.image c).length = if c ∈ g.skipped then 1 else (g.rules.body? c).elim 1 List.length := by
  rw [image, production?]
  by_cases hskip : c ∈ g.skipped
  · simp [hskip]
  · cases g.rules.body? c <;> simp [hskip]

/-- The bytes that a step asks room for are those of the next word in UTF-8, and the symbols of that
word are as many as the bodies have together, a symbol that is skipped or has no rule counting one.
While the word is written into a buffer for so many bytes, what has been written after `n` symbols
is what the first pass had added up after them, which is never more than there is room for, and the
text is not moved. The word is the same for any other capacity, but none is used up. So the buffer
of every generation is used up by that generation. -/
theorem step_sized_exactly :
    (∀ w : Word,
      let next := Word.text (g.step w)
      g.stepBytes w = next.utf8ByteSize ∧
      next.length = (w.map fun c =>
        if c ∈ g.skipped then 1 else (g.rules.body? c).elim 1 List.length).sum ∧
      ∀ (growth : Growth) (n capacity : Nat),
        let part := g.rewriteInto growth (.withCapacity (g.stepBytes w)) (w.take n)
        let whole := g.rewriteInto growth (.withCapacity capacity) w
        (part.bytes.size = g.stepBytes (w.take n) ∧ g.stepBytes (w.take n) ≤ g.stepBytes w ∧
          part.capacity = g.stepBytes w ∧ part.regrown = 0) ∧
        whole.bytes = next.toByteArray ∧ (whole.UsedUp ↔ capacity = g.stepBytes w)) ∧
    ∀ (growth : Growth) (k : Nat),
      let w := g.generation k
      let buffer := g.rewriteInto growth (.withCapacity (g.stepBytes w)) w
      buffer.bytes = (Word.text (g.generation (k + 1))).toByteArray ∧ buffer.UsedUp := by
  refine ⟨fun w => ⟨?_, ?_, fun growth n capacity => ⟨?_, ?_, ?_⟩⟩, fun growth k => ⟨?_, ?_⟩⟩
  · rw [stepBytes_eq, ← Word.size_utf8Encode, ← String.toByteArray_ofList]
    rfl
  · rw [Word.text, String.length_ofList, step, List.length_flatMap]
    simp only [length_image]
  · have hle := g.stepBytes_take_le n w
    obtain ⟨-, hsize, ⟨-, hcap, hstay⟩ | ⟨hfull, -⟩⟩ :=
      g.rewriteInto_withCapacity growth (g.stepBytes w) (w.take n)
    · exact ⟨hsize, hle, hcap, hstay⟩
    · -- A beginning has room where the whole word has.
      exact absurd hle (Nat.not_le_of_lt hfull)
  · exact (g.rewriteInto_withCapacity growth capacity w).1
  · exact g.usedUp_rewriteInto_iff growth capacity w
  · rw [generation_succ]
    exact (g.rewriteInto_withCapacity growth _ _).1
  · exact (g.usedUp_rewriteInto_iff growth _ _).2 rfl

/-- Symbols of one to four bytes: one is replaced, one deleted, one skipped although it has a rule,
and one has none. A buffer that is a byte too small is moved. -/
example :
    let g : Grammar :=
      ⟨['a'], ((RuleSet.empty.insert 'a' "é𝄞".toList).insert 'é' []).insert '⇧' "bb".toList, 1, 1,
        Std.ExtTreeSet.ofList ['⇧'], ⟨90, 0, 1⟩⟩
    let w := "aé⇧𝄞".toList
    g.step w = "é𝄞⇧𝄞".toList ∧ g.stepBytes w = 13 ∧
      (g.rewriteInto .doubling (.withCapacity 13) w).regrown = 0 ∧
      (g.rewriteInto .doubling (.withCapacity 12) w).regrown = 1 := by
  decide +kernel

end Grammar

end TurtleCurves
