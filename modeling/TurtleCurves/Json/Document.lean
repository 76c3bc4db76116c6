import TurtleCurves.Json.Token

/-!
# Reading a document

The tokens of a text are put together by a stack of the containers that are open.  A `Build` is
the state between two tokens, and reading is a fold of `Build.step`, so that nesting of any depth is
read in one pass.  Where a token does not fit, the open containers keep what they have and stay
unclosed.
-/

namespace TurtleCurves.Json

/-- An open container around the value that is being read; its contents are newest first. -/
inductive Frame
  | array (items : List Reading)
  /-- The members so far and the name of the one whose value is being read. -/
  | object (members : List (Option String × Reading)) (name : Option String)

/-- What may come next in the innermost open container; contents are newest first. -/
inductive Due
  | value
  /-- The first item of an array, or its end. -/
  | firstItem
  /-- A comma or the end of the array. -/
  | nextItem (items : List Reading)
  /-- The first name of an object, or its end. -/
  | firstName
  /-- The name of a further member. -/
  | name (members : List (Option String × Reading))
  | colon (members : List (Option String × Reading)) (name : Option String)
  /-- A comma or the end of the object. -/
  | nextName (members : List (Option String × Reading))

/-- What a text says, and whether nothing but blanks follows its value. -/
structure Document where
  root : Reading
  clean : Bool

/-- The state between two tokens. -/
inductive Build
  /-- The value is not complete yet. -/
  | inside (frames : List Frame) (due : Due)
  /-- The value is complete. -/
  | finished (root : Reading)
  /-- The text has gone wrong, inside the value or after it. -/
  | stopped (root : Reading)

/-- The reading of a whole text that breaks off while `r` is being read inside the containers. -/
def breakOff : List Frame → Reading → Reading
  | [], r => r
  | .array items :: frames, r => breakOff frames (.array (r :: items).reverse false)
  | .object members name :: frames, r =>
      breakOff frames (.object ((name, r) :: members).reverse false)

namespace Due

/-- What the innermost container amounts to if nothing that fits follows. -/
def remains : Due → Reading
  | value => .malformed
  | firstItem => .array [] false
  | nextItem items => .array items.reverse false
  | firstName => .object [] false
  | name members | nextName members => .object members.reverse false
  | colon members label => .object ((label, .malformed) :: members).reverse false

end Due

namespace Build

/-- The state after a complete value. -/
def place : List Frame → Reading → Build
  | [], r => finished r
  | .array items :: frames, r => inside frames (.nextItem (r :: items))
  | .object members name :: frames, r => inside frames (.nextName ((name, r) :: members))

/-- The state after a token that does not fit. -/
def stop (frames : List Frame) (due : Due) : Build :=
  stopped (breakOff frames due.remains)

/-- The state after the first token of a value. -/
def beginValue (frames : List Frame) : Token → Build
  | .scalar r => place frames r
  | .openArray => inside frames .firstItem
  | .openObject => inside frames .firstName
  | _ => stop frames .value

/-- The state after a name; anything but a string in its place does not fit. -/
def beginMember (frames : List Frame) (members : List (Option String × Reading)) : Token → Build
  | .scalar (.text s) => inside frames (.colon members (some s))
  | .scalar .unpaired => inside frames (.colon members none)
  | _ => stop frames (.colon members none)

/-- The state after one more token. -/
def step : Build → Token → Build
  | inside frames .value, t => beginValue frames t
  | inside frames .firstItem, .closeArray => place frames (.array [] true)
  | inside frames .firstItem, t => beginValue (.array [] :: frames) t
  | inside frames (.nextItem items), .comma => inside (.array items :: frames) .value
  | inside frames (.nextItem items), .closeArray => place frames (.array items.reverse true)
  | inside frames .firstName, .closeObject => place frames (.object [] true)
  | inside frames .firstName, t => beginMember frames [] t
  | inside frames (.name members), t => beginMember frames members t
  | inside frames (.colon members name), .colon => inside (.object members name :: frames) .value
  | inside frames (.nextName members), .comma => inside frames (.name members)
  | inside frames (.nextName members), .closeObject => place frames (.object members.reverse true)
  | inside frames due, _ => stop frames due
  | finished r, _ => stopped r
  | stopped r, _ => stopped r

/-- The document whose tokens have led to a state. -/
def document : Build → Document
  | inside frames due => ⟨breakOff frames due.remains, false⟩
  | finished r => ⟨r, true⟩
  | stopped r => ⟨r, false⟩

end Build

/-- Reads a text. -/
def Document.ofText (text : String) : Document :=
  ((tokens text.toList).foldl Build.step (.inside [] .value)).document

end TurtleCurves.Json
