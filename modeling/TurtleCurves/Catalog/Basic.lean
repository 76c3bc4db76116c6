import TurtleCurves.Error
import TurtleCurves.Grammar.Json

/-!
# Catalogs

A catalog assigns grammar records to names.  Names are ordered by code points, and a name that is
given again takes the new record.  The document of a catalog is a JSON object from names to
records.
-/

namespace TurtleCurves

/-- Grammar records by name. -/
structure Catalog where
  entries : Std.ExtTreeMap String GrammarRecord

namespace Catalog

/-- The catalog without entries. -/
def empty : Catalog :=
  ⟨∅⟩

/-- Files `record` under `name`, whatever stood there before. -/
def insert (catalog : Catalog) (name : String) (record : GrammarRecord) : Catalog :=
  ⟨catalog.entries.insert name record⟩

/-- The catalog of a list of entries; the last entry of a name wins. -/
def ofList (entries : List (String × GrammarRecord)) : Catalog :=
  entries.foldl (fun catalog e => catalog.insert e.1 e.2) empty

/-- The names in ascending order. -/
def names (catalog : Catalog) : List String :=
  catalog.entries.keys

/-- The record of a name. -/
def get? (catalog : Catalog) (name : String) : Option GrammarRecord :=
  catalog.entries[name]?

/-- The entries by ascending name. -/
def toList (catalog : Catalog) : List (String × GrammarRecord) :=
  catalog.entries.toList

/-- The number of names. -/
def size (catalog : Catalog) : Nat :=
  catalog.entries.size

/-- There is no entry. -/
def isEmpty (catalog : Catalog) : Bool :=
  catalog.entries.isEmpty

/-- The grammar of a name. -/
def validate (catalog : Catalog) (name : String) : Logged (CurveError Float) Grammar :=
  match catalog.get? name with
  | none => Logged.fail (.unknownGrammar name)
  | some record => record.validate.mapError .invalidGrammar

@[simp] theorem get?_empty (name : String) : empty.get? name = none := by
  simp [empty, get?]

/-- The name that is filed has its record, and the other names keep theirs. -/
theorem get?_insert (catalog : Catalog) (name other : String) (record : GrammarRecord) :
    (catalog.insert name record).get? other =
      if name = other then some record else catalog.get? other := by
  simp [insert, get?, Std.ExtTreeMap.getElem?_insert]

/-- Catalogs that agree on every name are equal. -/
theorem ext_get? {a b : Catalog} (h : ∀ name, a.get? name = b.get? name) : a = b := by
  cases a; cases b
  exact congrArg mk (Std.ExtTreeMap.ext_getElem? h)

/-- Reads an object from names to records. -/
def decode : Json.Decoder Catalog := fun r =>
  (Json.decodeMap GrammarRecord.schema.decode r).map ofList

/-- The document of a catalog. -/
def toJson (catalog : Catalog) : Json :=
  .object (catalog.toList.map fun e => (e.1, GrammarRecord.schema.encode e.2))

/-- Reads the text of a catalog document. -/
def ofText (text : String) : Except (CurveError Float) Catalog :=
  (Json.decodeDocument decode text).mapError .badCatalog

end Catalog

end TurtleCurves
