import TurtleCurves.Json.Decode

/-!
# Records

A `Schema` describes the records of a type by their fields: a field has a name, the way to read it
into a record and the way to write it.  One schema serves both directions, and it reads both
notations of a record: the object of its members, in any order and among others, and the array of
its fields in the order of declaration.
-/

namespace TurtleCurves.Json

/-- When a field may be left out. -/
inductive Presence
  | required
  /-- In both notations. -/
  | optional
  /-- In an object, but not in an array. -/
  | optionalMember
deriving DecidableEq, Repr

/-- One field of records of type `ρ`. -/
structure Field (ρ : Type) where
  name : String
  presence : Presence
  /-- Reads the field into a record. -/
  read : Reading → ρ → Except Problem ρ
  /-- Writes the field of a record. -/
  write : ρ → Json

/-- A field from a codec for its type and the access to it. -/
def Field.of {ρ τ : Type} (name : String) (presence : Presence) (decode : Decoder τ)
    (encode : τ → Json) (get : ρ → τ) (set : ρ → τ → ρ) : Field ρ where
  name := name
  presence := presence
  read reading record := (decode reading).map (set record)
  write record := encode (get record)

/-- Records of type `ρ`. -/
structure Schema (ρ : Type) where
  title : String
  /-- The record to read into; it holds the values of the fields that may be left out. -/
  blank : ρ
  /-- The fields in the order of declaration. -/
  fields : List (Field ρ)

namespace Schema

variable {ρ : Type}

/-- The field with a name. -/
def field? (schema : Schema ρ) (name : String) : Option (Field ρ) :=
  schema.fields.find? fun f => f.name == name

/-- Reads members into a record; `seen` are the names of the fields that have been read.  Members
without a field are skipped whatever they hold, and a field must not be repeated. -/
def readMembers (schema : Schema ρ) :
    List (Option String × Reading) → List String → ρ → Except Problem (List String × ρ)
  | [], seen, record => .ok (seen, record)
  | (some name, r) :: ms, seen, record =>
      match schema.field? name with
      | none => if r.isWhole then schema.readMembers ms seen record else .error .malformed
      | some field =>
          if seen.contains name then mismatch (.duplicateField name)
          else do
            let record ← field.read r record
            schema.readMembers ms (name :: seen) record
  | (none, _) :: _, _, _ => .error .malformed

/-- The first field in the order of declaration that is needed and was not seen. -/
def missing? (schema : Schema ρ) (seen : List String) : Option (Field ρ) :=
  schema.fields.find? fun f => f.presence = .required && !seen.contains f.name

/-- The failure of an array that ends too early. -/
def tooShort (schema : Schema ρ) (index : Nat) : Except Problem ρ :=
  mismatch (.wrongLength index (.recordItems schema.title schema.fields.length))

/-- Reads items into the fields from the one with the given index on.  At the end of the array the
remaining fields must be optional; a further item is malformed. -/
def readItems (schema : Schema ρ) (closed : Bool) :
    List (Field ρ) → Nat → List Reading → ρ → Except Problem ρ
  | [], _, [], record => if closed then .ok record else .error .malformed
  | [], _, _ :: _, _ => .error .malformed
  | field :: fields, index, [], record =>
      if !closed then .error .malformed
      else if field.presence = .optional then
        schema.readItems closed fields (index + 1) [] record
      else schema.tooShort index
  | field :: fields, index, r :: rs, record => do
      let record ← field.read r record
      schema.readItems closed fields (index + 1) rs record

/-- Reads a record. -/
def decode (schema : Schema ρ) : Decoder ρ
  | .object members closed => do
      let (seen, record) ← schema.readMembers members [] schema.blank
      if !closed then .error .malformed
      else
        match schema.missing? seen with
        | some field => mismatch (.missingField field.name)
        | none => .ok record
  | .array items closed => schema.readItems closed schema.fields 0 items schema.blank
  | r => wrongType (.record schema.title) r

/-- Writes a record as an object with all its fields. -/
def encode (schema : Schema ρ) (record : ρ) : Json :=
  .object (schema.fields.map fun f => (f.name, f.write record))

end Schema

end TurtleCurves.Json
