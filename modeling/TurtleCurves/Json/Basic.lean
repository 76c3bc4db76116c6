/-!
# JSON values

`Json` is what a document means; `Json.Reading` is what was found in a text that may break off or
go wrong anywhere.  A text is read once from left to right, and a decoder must report the first
problem it meets, so a reading keeps everything that stands before the place where the text goes
wrong, in order:

* a container that is not closed holds what was read of it, and the fault comes after that;
* a number that no double can hold and a string with half of a surrogate pair are well formed, and
  are faults only where their value is wanted;
* a member without a name stands where the name is no string or has half of a surrogate pair.

`Json.reading` is the reading of a text without faults.
-/

namespace TurtleCurves

/-- A JSON value.  A number is an integer if it is written as one and fits 64 bits, with or without
sign; any other number is a double. -/
inductive Json
  | null
  | bool (value : Bool)
  | integer (value : Int)
  | real (value : Float)
  | text (value : String)
  | array (items : List Json)
  | object (members : List (String × Json))

namespace Json

/-- A double as JSON: one that is not finite has no notation and becomes `null`. -/
def ofFloat (x : Float) : Json :=
  if x.isFinite then real x else null

/-- Whole numbers with sign as JSON. -/
def ofInt64 (n : Int64) : Json :=
  .integer n.toInt

/-- Whole numbers without sign as JSON. -/
def ofUInt64 (n : UInt64) : Json :=
  .integer n.toNat

/-- A value or `null`. -/
def ofOption {τ : Type} (encode : τ → Json) : Option τ → Json
  | none => .null
  | some v => encode v

/-- What was found where a value should stand. -/
inductive Reading
  | null
  | bool (value : Bool)
  | integer (value : Int)
  | real (value : Float)
  /-- A number too large for a double. -/
  | overflow
  | text (value : String)
  /-- A string that escapes one half of a surrogate pair without the other. -/
  | unpaired
  | array (items : List Reading) (closed : Bool)
  /-- The members with their names, as far as they have one. -/
  | object (members : List (Option String × Reading)) (closed : Bool)
  /-- No value stands there. -/
  | malformed

/-- The value is complete: skipping it meets no fault. -/
def Reading.isWhole : Reading → Bool
  | malformed => false
  | array _ closed | object _ closed => closed
  | _ => true

mutual

/-- The reading of a value whose text has no fault. -/
def reading : Json → Reading
  | null => .null
  | bool b => .bool b
  | integer n => .integer n
  | real x => .real x
  | text s => .text s
  | array items => .array (readingItems items) true
  | object members => .object (readingMembers members) true

/-- The readings of the items of an array. -/
def readingItems : List Json → List Reading
  | [] => []
  | v :: vs => v.reading :: readingItems vs

/-- The readings of the members of an object. -/
def readingMembers : List (String × Json) → List (Option String × Reading)
  | [] => []
  | (name, v) :: ms => (some name, v.reading) :: readingMembers ms

end

/-- The items of an array are read one by one. -/
theorem readingItems_eq_map (items : List Json) : readingItems items = items.map reading := by
  induction items with
  | nil => rfl
  | cons v vs ih => simp [readingItems, ih]

/-- A text without faults reads as a complete value. -/
theorem isWhole_reading (v : Json) : v.reading.isWhole = true := by
  cases v <;> rfl

end Json

end TurtleCurves
