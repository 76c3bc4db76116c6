import TurtleCurves.Decimal.Layout
import TurtleCurves.Json.Basic
import TurtleCurves.Text.Quoted

/-!
# Problems with documents

A document is refused either because its text is not JSON, or not enough of it, or because a value
is not what is wanted.  Of the first kind only the fact is kept.  Of the second kind the cause is a
`Mismatch`, whose wording is `Mismatch.message`.
-/

namespace TurtleCurves.Json

/-- What a message says was found. -/
inductive Found
  | null
  | bool (value : Bool)
  | integer (value : Int)
  | real (value : Float)
  | text (value : String)
  | sequence
  | map
  /-- A bare variant name. -/
  | unitVariant
deriving DecidableEq, Repr

/-- What a message says was wanted. -/
inductive Wanted
  /-- A whole number of 64 bits with sign. -/
  | int64
  /-- A whole number of 64 bits without sign. -/
  | uint64
  | float
  | text
  | sequence
  | map
  /-- Nothing but `null`. -/
  | unit
  /-- A variant name with a payload. -/
  | payload
  /-- A record by its title. -/
  | record (title : String)
  /-- A record written as an array of all its fields. -/
  | recordItems (title : String) (count : Nat)
  /-- An array of so many numbers. -/
  | numbers (count : Nat)
deriving DecidableEq, Repr

/-- Why a value is refused. -/
inductive Mismatch
  | wrongType (found : Found) (wanted : Wanted)
  /-- The type is right, the value is out of range. -/
  | outOfRange (value : Int) (wanted : Wanted)
  /-- An array ends too early, after `count` items. -/
  | wrongLength (count : Nat) (wanted : Wanted)
  | unknownVariant (name : String) (known : List String)
  | missingField (name : String)
  | duplicateField (name : String)
deriving DecidableEq, Repr

/-- Why a document is refused. -/
inductive Problem
  /-- The text is not JSON, or the value ends where more is wanted or goes on where it should
  end. -/
  | malformed
  | mismatch (cause : Mismatch)
deriving DecidableEq, Repr

/-- Doubles in messages: positional from `1e-5` to below `1e16`, else with a signed exponent. -/
def realLayout : Decimal.Layout :=
  ⟨-5, 15⟩

/-- The wording of what was found. -/
def Found.description : Found → String
  | null => "null"
  | bool value => s!"boolean `{value}`"
  | integer value => s!"integer `{value}`"
  | real value => s!"floating point `{realLayout.renderFloat value}`"
  | text value => s!"string {Text.quoted value}"
  | sequence => "sequence"
  | map => "map"
  | unitVariant => "unit variant"

/-- The wording of what was wanted. -/
def Wanted.description : Wanted → String
  | int64 => "i64"
  | uint64 => "usize"
  | float => "f64"
  | text => "a string"
  | sequence => "a sequence"
  | map => "a map"
  | unit => "unit"
  | payload => "newtype variant"
  | record title => s!"struct {title}"
  | recordItems title count =>
      let noun := if count = 1 then "element" else "elements"
      s!"struct {title} with {count} {noun}"
  | numbers count => s!"a sequence of {count} f64 values"

/-- A name between grave accents. -/
def graveQuoted (name : String) : String :=
  s!"`{name}`"

/-- A choice between names: two are joined by "or", more are listed. -/
def choice : List String → String
  | [a] => graveQuoted a
  | [a, b] => s!"{graveQuoted a} or {graveQuoted b}"
  | names => "one of " ++ ", ".intercalate (names.map graveQuoted)

namespace Mismatch

/-- The wording of a mismatch. -/
def message : Mismatch → String
  | wrongType found wanted => s!"invalid type: {found.description}, expected {wanted.description}"
  | outOfRange value wanted =>
      s!"invalid value: {(Found.integer value).description}, expected {wanted.description}"
  | wrongLength count wanted => s!"invalid length {count}, expected {wanted.description}"
  | unknownVariant name known => s!"unknown variant {graveQuoted name}, expected {choice known}"
  | missingField name => s!"missing field {graveQuoted name}"
  | duplicateField name => s!"duplicate field {graveQuoted name}"

end Mismatch

/-- The wording of a problem. -/
def Problem.message : Problem → String
  | malformed => "malformed document"
  | mismatch cause => cause.message

end TurtleCurves.Json
