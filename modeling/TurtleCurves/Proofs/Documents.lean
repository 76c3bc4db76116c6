import TurtleCurves.Json.Decode

/-!
# Documents are read as they are written

A value is written as a sequence of tokens (`Json.written`). Whatever text has these tokens, with
blanks wherever they may stand, is read as that value: `ofText_of_written`.

## Shape of the proof

Reading is a fold over the tokens, so nothing has to be said about the rest of a text. From a state
in which a value may begin, the tokens of a value lead to the state after it (`foldl_written`), in
whatever containers it stands. The tokens behind the first item of an array, or behind the first
member of an object, lead from the state after it to the state after the container. These three
facts are one induction over the value.
-/

namespace TurtleCurves.Json

mutual

/-- The tokens of a value. -/
def written : Json → List Token
  | null => [.scalar .null]
  | bool b => [.scalar (.bool b)]
  | integer n => [.scalar (.integer n)]
  | real x => [.scalar (.real x)]
  | text s => [.scalar (.text s)]
  | array [] => [.openArray, .closeArray]
  | array (v :: vs) => .openArray :: (v.written ++ writtenItems vs)
  | object [] => [.openObject, .closeObject]
  | object ((name, v) :: ms) =>
      .openObject :: .scalar (.text name) :: .colon :: (v.written ++ writtenMembers ms)

/-- The tokens behind an item of an array, up to its end. -/
def writtenItems : List Json → List Token
  | [] => [.closeArray]
  | v :: vs => .comma :: (v.written ++ writtenItems vs)

/-- The tokens behind a member of an object, up to its end. -/
def writtenMembers : List (String × Json) → List Token
  | [] => [.closeObject]
  | (name, v) :: ms =>
      .comma :: .scalar (.text name) :: .colon :: (v.written ++ writtenMembers ms)

end

/-- Where an item may begin, it is read like any other, whether or not it is the first. -/
theorem foldl_written_firstItem (frames : List Frame) (v : Json) :
    v.written.foldl Build.step (.inside frames .firstItem) =
      v.written.foldl Build.step (.inside (.array [] :: frames) .value) := by
  cases v with
  | array items => cases items <;> rw [written] <;> rfl
  | object members => cases members <;> rw [written] <;> rfl
  | _ => rw [written]; rfl

mutual

/-- The tokens of a value lead to the state after it. -/
theorem foldl_written (frames : List Frame) : ∀ v : Json,
    v.written.foldl Build.step (.inside frames .value) = Build.place frames v.reading
  | null | bool _ | integer _ | real _ | text _ => by rw [written]; rfl
  | array [] => by rw [written]; rfl
  | array (v :: vs) => by
    rw [written, List.foldl_cons, List.foldl_append]
    show (writtenItems vs).foldl Build.step
      (v.written.foldl Build.step (.inside frames .firstItem)) = _
    -- The first item is read like any other; what follows it is read with that one item done.
    rw [foldl_written_firstItem, foldl_written _ v]
    exact foldl_writtenItems frames [v.reading] vs
  | object [] => by rw [written]; rfl
  | object ((name, v) :: ms) => by
    rw [written, List.foldl_cons, List.foldl_cons, List.foldl_cons, List.foldl_append]
    show (writtenMembers ms).foldl Build.step
      (v.written.foldl Build.step (.inside (.object [] (some name) :: frames) .value)) = _
    rw [foldl_written _ v]
    exact foldl_writtenMembers frames [(some name, v.reading)] ms

/-- The tokens behind an item lead to the state after the array. -/
theorem foldl_writtenItems (frames : List Frame) (done : List Reading) : ∀ vs : List Json,
    (writtenItems vs).foldl Build.step (.inside frames (.nextItem done)) =
      Build.place frames (.array (done.reverse ++ readingItems vs) true)
  | [] => by rw [writtenItems, readingItems, List.append_nil]; rfl
  | v :: vs => by
    rw [writtenItems, List.foldl_cons, List.foldl_append]
    show (writtenItems vs).foldl Build.step
      (v.written.foldl Build.step (.inside (.array done :: frames) .value)) = _
    rw [foldl_written _ v]
    refine (foldl_writtenItems frames (v.reading :: done) vs).trans ?_
    rw [readingItems, List.reverse_cons, List.append_assoc, List.singleton_append]

/-- The tokens behind a member lead to the state after the object. -/
theorem foldl_writtenMembers (frames : List Frame) (done : List (Option String × Reading)) :
    ∀ ms : List (String × Json),
      (writtenMembers ms).foldl Build.step (.inside frames (.nextName done)) =
        Build.place frames (.object (done.reverse ++ readingMembers ms) true)
  | [] => by rw [writtenMembers, readingMembers, List.append_nil]; rfl
  | (name, v) :: ms => by
    rw [writtenMembers, List.foldl_cons, List.foldl_cons, List.foldl_cons, List.foldl_append]
    show (writtenMembers ms).foldl Build.step
      (v.written.foldl Build.step (.inside (.object done (some name) :: frames) .value)) = _
    rw [foldl_written _ v]
    refine (foldl_writtenMembers frames ((some name, v.reading) :: done) ms).trans ?_
    rw [readingMembers, List.reverse_cons, List.append_assoc, List.singleton_append]

end

/-- A text with the tokens of a value is a document of that value. -/
theorem ofText_of_written {text : String} {v : Json} (h : tokens text.toList = v.written) :
    Document.ofText text = ⟨v.reading, true⟩ := by
  rw [Document.ofText, h, foldl_written]
  rfl

/-- A decoder is asked for the reading of the value alone. -/
theorem decodeDocument_of_written {τ : Type} {decode : Decoder τ} {text : String} {v : Json}
    (h : tokens text.toList = v.written) : decodeDocument decode text = decode v.reading := by
  rw [decodeDocument, ofText_of_written h]
  show ((decode v.reading).bind fun value => .ok value) = decode v.reading
  cases decode v.reading <;> rfl

end TurtleCurves.Json
