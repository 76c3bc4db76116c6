import Mathlib.Data.List.Find
import TurtleCurves.Proofs.Records

/-!
# Members in any order

A record is read member by member, each into the record that the members before it have left. If
reading any two fields comes to the same in either order (`Field.Commutes`), this amounts to
collecting the values of the fields in the order of declaration (`Collects`), wherever they stood
among the members (`readMembers_eq_ok_iff`, by induction on the members). So what an object says of
a record can be put without the order of its members (`Describes`): the names of its members are
admitted, no required one is missing, and the values collect to the record. It does not change when
members change places, come or go that belong to no field, or go that have a default.

An array is read in the order of declaration to begin with. Where an object has no value, an array
must have the default, unless nothing but defaults would follow. A default does not change the
blank record, and what is read before it does not alter that, since the fields commute (`Idle`).
-/

namespace TurtleCurves

namespace Json

variable {ρ : Type}

/-! ## Fields -/

namespace Field

variable {f g : Field ρ}

/-- Reads the field from its value, if it has one. -/
def readValue (f : Field ρ) : Option Reading → ρ → Except Problem ρ
  | none, t => .ok t
  | some r, t => f.read r t

/-- Reading the two fields comes to the same in either order. -/
def Commutes (f g : Field ρ) : Prop :=
  ∀ (r r' : Reading) (t u : ρ),
    (∃ t', f.read r t = .ok t' ∧ g.read r' t' = .ok u) ↔
      ∃ t', g.read r' t = .ok t' ∧ f.read r t' = .ok u

/-- Whether the field can be read does not depend on the record that it is read into. -/
def Steady (f : Field ρ) : Prop :=
  ∀ (r : Reading) (t t' u : ρ), f.read r t = .ok u → ∃ u', f.read r t' = .ok u'

/-- Reading the value, if there is one, does not change a record that has no values yet. -/
def Defaults (f : Field ρ) (blank : ρ) (value : Option Reading) : Prop :=
  ∀ r ∈ value, f.read r blank = .ok blank

/-- The item can stand in an array for the value of the field, or for the default if there is
none. -/
def Shows (f : Field ρ) (blank : ρ) (value : Option Reading) (item : Reading) : Prop :=
  value = some item ∨ value = none ∧ f.read item blank = .ok blank

/-- Which of two fields is read first can be said either way. -/
theorem Commutes.symm (h : f.Commutes g) : g.Commutes f :=
  fun r r' t u => (h r' r t u).symm

/-- Fields that commute do so as well if the second one has no value. -/
theorem Commutes.readValue_right (h : f.Commutes g) (r : Reading) (value : Option Reading)
    (t u : ρ) :
    (∃ t', f.read r t = .ok t' ∧ g.readValue value t' = .ok u) ↔
      ∃ t', g.readValue value t = .ok t' ∧ f.read r t' = .ok u := by
  cases value with
  | none => simp [readValue]
  | some r' => exact h r r' t u

/-- What was read into one record, a value or nothing, can be read into any other. -/
theorem Steady.readValue (h : f.Steady) {value : Option Reading} {t u : ρ}
    (hread : f.readValue value t = .ok u) (t' : ρ) : ∃ u', f.readValue value t' = .ok u' := by
  cases value with
  | none => exact ⟨t', rfl⟩
  | some r => exact h r t t' u hread

/-- Fields commute if setting them does, since decoding a value does not look at the record. -/
theorem commutes_of {τ σ : Type} {name name' : String} {presence presence' : Presence}
    {decode : Decoder τ} {decode' : Decoder σ} {encode : τ → Json} {encode' : σ → Json}
    {get : ρ → τ} {get' : ρ → σ} {set : ρ → τ → ρ} {set' : ρ → σ → ρ}
    (h : ∀ t v v', set' (set t v) v' = set (set' t v') v) :
    (Field.of name presence decode encode get set).Commutes
      (.of name' presence' decode' encode' get' set') := by
  intro r r' t u
  simp only [Field.of]
  cases decode r with
  | error e => simp [Except.map]
  | ok v =>
    cases decode' r' with
    | error e => simp [Except.map]
    | ok v' => simp [Except.map, h]

/-- A field that is given by a decoder and a way to set it is steady. -/
theorem steady_of {τ : Type} {name : String} {presence : Presence} {decode : Decoder τ}
    {encode : τ → Json} {get : ρ → τ} {set : ρ → τ → ρ} :
    (Field.of name presence decode encode get set).Steady := by
  intro r t t' u h
  simp only [Field.of] at h ⊢
  cases hr : decode r with
  | error e =>
    rw [hr] at h
    cases h
  | ok v => exact ⟨set t' v, rfl⟩

end Field

namespace Schema

variable {schema : Schema ρ} {fields : List (Field ρ)} {values values' : String → Option Reading}
  {t u : ρ}

/-- The fields have names of their own and can be read in any order. -/
structure Unordered (schema : Schema ρ) : Prop where
  names : (schema.fields.map Field.name).Nodup
  commutes : schema.fields.Pairwise Field.Commutes
  steady : ∀ f ∈ schema.fields, f.Steady

/-! ## Collecting the values of fields -/

/-- Reading the fields that have a value, in the order of declaration, leads from `t` to `u`. -/
def Collects (values : String → Option Reading) : List (Field ρ) → ρ → ρ → Prop
  | [], t, u => t = u
  | f :: fs, t, u => ∃ t', f.readValue (values f.name) t = .ok t' ∧ Collects values fs t' u

/-- Of the values only those under the names of the fields are looked up. -/
theorem collects_congr (h : ∀ f ∈ fields, values f.name = values' f.name) :
    Collects values fields t u ↔ Collects values' fields t u := by
  induction fields generalizing t with
  | nil => rfl
  | cons f fs ih =>
    rw [List.forall_mem_cons] at h
    simp only [Collects, h.1, ih h.2]

/-- Where no field has a value nothing is read. -/
theorem collects_none (h : ∀ f ∈ fields, values f.name = none) :
    Collects values fields t u ↔ t = u := by
  induction fields generalizing t with
  | nil => rfl
  | cons f fs ih =>
    rw [List.forall_mem_cons] at h
    simp [Collects, h.1, ih h.2, Field.readValue]

/-- One more value can just as well be read before all others. -/
theorem collects_iff_read_first (hnames : (fields.map Field.name).Nodup)
    (hcommutes : fields.Pairwise Field.Commutes) {f : Field ρ} (hf : f ∈ fields) {r : Reading}
    (hvalue : values f.name = some r) (hnone : values' f.name = none)
    (hrest : ∀ g ∈ fields, g.name ≠ f.name → values g.name = values' g.name) :
    Collects values fields t u ↔ ∃ t', f.read r t = .ok t' ∧ Collects values' fields t' u := by
  -- By induction on the fields: the one with the new value is the first or comes later.
  induction fields generalizing t with
  | nil => exact absurd hf List.not_mem_nil
  | cons g fs ih =>
    rw [List.map_cons, List.nodup_cons] at hnames
    rw [List.pairwise_cons] at hcommutes
    rw [List.forall_mem_cons] at hrest
    rcases List.mem_cons.1 hf with rfl | hmem
    · have hsame : ∀ g ∈ fs, values g.name = values' g.name := fun g hg =>
        hrest.2 g hg fun heq => hnames.1 (heq ▸ List.mem_map_of_mem hg)
      simp only [Collects, hvalue, hnone, Field.readValue, collects_congr hsame, Except.ok.injEq,
        exists_eq_left']
    · -- The field comes later: its value is brought in front of the rest, then past that of `g`.
      have hne : g.name ≠ f.name := fun heq => hnames.1 (heq ▸ List.mem_map_of_mem hmem)
      have hswap := (hcommutes.1 f hmem).symm.readValue_right r (values' g.name)
      simp only [Collects, hrest.1 hne, ih hnames.2 hcommutes.2 hmem hrest.2]
      constructor
      · rintro ⟨t₁, hg, t₂, hfirst, hcollects⟩
        obtain ⟨t', hf', hg'⟩ := (hswap t t₂).2 ⟨t₁, hg, hfirst⟩
        exact ⟨t', hf', t₂, hg', hcollects⟩
      · rintro ⟨t', hf', t₂, hg', hcollects⟩
        obtain ⟨t₁, hg, hfirst⟩ := (hswap t t₂).1 ⟨t', hf', hg'⟩
        exact ⟨t₁, hg, t₂, hfirst, hcollects⟩

/-- The defaults of the fields leave `t` alone, as they do the blank record. -/
def Idle (blank : ρ) (fields : List (Field ρ)) (t : ρ) : Prop :=
  ∀ f ∈ fields, ∀ r, f.read r blank = .ok blank → f.read r t = .ok t

/-- A default leaves an idle record alone, and so does a value that is not there. -/
theorem Idle.readValue_default {blank : ρ} (h : Idle blank fields t) {f : Field ρ}
    (hf : f ∈ fields) {value : Option Reading} (hvalue : f.Defaults blank value) :
    f.readValue value t = .ok t := by
  cases value with
  | none => rfl
  | some r => exact h f hf r (hvalue r rfl)

/-- Reading another field keeps the defaults of a field idle. -/
theorem Idle.of_readValue {blank t' : ρ} (h : Idle blank fields t) {f : Field ρ}
    (hcommutes : ∀ g ∈ fields, f.Commutes g) {value : Option Reading}
    (hread : f.readValue value t = .ok t') : Idle blank fields t' := by
  intro g hg r hr
  -- The default of `g` is read first, where it changes nothing, and then brought behind `f`.
  obtain ⟨t'', hf, hg'⟩ := ((hcommutes g hg).symm.readValue_right r value t t').1
    ⟨t, h g hg r hr, hread⟩
  rw [hread] at hf
  cases hf
  exact hg'

/-- Where all values are defaults, collecting them changes nothing. -/
theorem Collects.eq_of_defaults {blank : ρ} (hidle : Idle blank fields t)
    (hdefaults : ∀ f ∈ fields, f.Defaults blank (values f.name))
    (h : Collects values fields t u) : t = u := by
  induction fields with
  | nil => exact h
  | cons f fs ih =>
    obtain ⟨t', hread, hrest⟩ := h
    rw [List.forall_mem_cons] at hdefaults
    rw [hidle.readValue_default List.mem_cons_self hdefaults.1] at hread
    cases hread
    exact ih (fun g hg => hidle g (List.mem_cons_of_mem f hg)) hdefaults.2 hrest

/-- Without some of the values the others can still be read. -/
theorem Collects.of_fewer (hsteady : ∀ f ∈ fields, f.Steady)
    (hfewer : ∀ f ∈ fields, values' f.name = values f.name ∨ values' f.name = none)
    (h : Collects values fields t u) (t' : ρ) : ∃ u', Collects values' fields t' u' := by
  induction fields generalizing t t' with
  | nil => exact ⟨t', rfl⟩
  | cons f fs ih =>
    obtain ⟨t₁, hread, hrest⟩ := h
    rw [List.forall_mem_cons] at hsteady hfewer
    -- The record in hand is another one by now, so the value is read again because `f` is steady.
    obtain ⟨t₁', hread'⟩ : ∃ t₁', f.readValue (values' f.name) t' = .ok t₁' := by
      rcases hfewer.1 with hsame | hnone
      · rw [hsame]
        exact hsteady.1.readValue hread t'
      · rw [hnone]
        exact ⟨t', rfl⟩
    obtain ⟨u', hrest'⟩ := ih hsteady.2 hfewer.2 hrest t₁'
    exact ⟨u', t₁', hread', hrest'⟩

/-! ## Objects -/

/-- The value of the member with a name. -/
def value? (members : List (Option String × Reading)) (name : String) : Option Reading :=
  members.lookup (some name)

/-- The names of the members that belong to fields. -/
def fieldNames (schema : Schema ρ) (members : List (Option String × Reading)) : List String :=
  (members.filterMap Prod.fst).filter fun name => (schema.field? name).isSome

/-- The members have names, no two of them belong to one field, and those that belong to none can be
skipped. -/
structure Admits (schema : Schema ρ) (members : List (Option String × Reading)) : Prop where
  named : ∀ m ∈ members, m.1 ≠ none
  whole : ∀ m ∈ members, ∀ name, m.1 = some name → schema.field? name = none → m.2.isWhole = true
  once : (schema.fieldNames members).Nodup

variable {members members' : List (Option String × Reading)} {name : String} {r : Reading}

/-- The first member of a name gives its value. -/
theorem value?_cons_self : value? ((some name, r) :: members) name = some r :=
  List.lookup_cons_self

theorem value?_cons_of_ne {other : String} (h : other ≠ name) :
    value? ((some name, r) :: members) other = value? members other := by
  have hne : ((some other : Option String) == some name) = false := by simpa using h
  rw [value?, List.lookup_cons, hne]
  rfl

/-- A field that is found is one of the schema and has the name. -/
theorem field?_eq_some {f : Field ρ} (h : schema.field? name = some f) :
    f ∈ schema.fields ∧ f.name = name :=
  ⟨List.mem_of_find?_eq_some h, by simpa using List.find?_some h⟩

/-- Where no field is found, none has the name. -/
theorem ne_name_of_field?_eq_none (h : schema.field? name = none) {f : Field ρ}
    (hf : f ∈ schema.fields) : f.name ≠ name := by
  have hne := List.find?_eq_none.1 h f hf
  simpa using hne

/-- A member that belongs to no field adds no name. -/
theorem fieldNames_cons_of_none (h : schema.field? name = none) :
    schema.fieldNames ((some name, r) :: members) = schema.fieldNames members := by
  simp [fieldNames, h]

theorem fieldNames_cons_of_some {f : Field ρ} (h : schema.field? name = some f) :
    schema.fieldNames ((some name, r) :: members) = name :: schema.fieldNames members := by
  simp [fieldNames, h]

/-- The names of an object are those of its members to which a field belongs. -/
theorem mem_fieldNames_iff :
    name ∈ schema.fieldNames members ↔
      (∃ m ∈ members, m.1 = some name) ∧ (schema.field? name).isSome := by
  rw [fieldNames, List.mem_filter, List.mem_filterMap]

/-- A field to which no member belongs has no value. -/
theorem value?_eq_none (h : (schema.field? name).isSome)
    (hname : name ∉ schema.fieldNames members) : value? members name = none := by
  rw [value?, List.lookup_eq_none_iff]
  intro m hm
  have hne : m.1 ≠ some name := fun heq =>
    hname (mem_fieldNames_iff.2 ⟨⟨m, hm, heq⟩, h⟩)
  simpa using hne.symm

theorem admits_nil : schema.Admits [] :=
  ⟨by simp, by simp, List.nodup_nil⟩

/-- A member that belongs to no field only has to be one that can be skipped. -/
theorem admits_cons_of_none (h : schema.field? name = none) :
    schema.Admits ((some name, r) :: members) ↔ r.isWhole = true ∧ schema.Admits members := by
  constructor
  · rintro ⟨hnamed, hwhole, honce⟩
    rw [List.forall_mem_cons] at hnamed hwhole
    rw [fieldNames_cons_of_none h] at honce
    exact ⟨hwhole.1 name rfl h, hnamed.2, hwhole.2, honce⟩
  · rintro ⟨hr, hnamed, hwhole, honce⟩
    refine ⟨List.forall_mem_cons.2 ⟨Option.some_ne_none _, hnamed⟩,
      List.forall_mem_cons.2 ⟨fun _ _ _ => hr, hwhole⟩, ?_⟩
    rwa [fieldNames_cons_of_none h]

/-- A member of a field only has to be the first of that field. -/
theorem admits_cons_of_some {f : Field ρ} (h : schema.field? name = some f) :
    schema.Admits ((some name, r) :: members) ↔
      name ∉ schema.fieldNames members ∧ schema.Admits members := by
  constructor
  · rintro ⟨hnamed, hwhole, honce⟩
    rw [List.forall_mem_cons] at hnamed hwhole
    rw [fieldNames_cons_of_some h, List.nodup_cons] at honce
    exact ⟨honce.1, hnamed.2, hwhole.2, honce.2⟩
  · rintro ⟨hname, hnamed, hwhole, honce⟩
    refine ⟨List.forall_mem_cons.2 ⟨Option.some_ne_none _, hnamed⟩,
      List.forall_mem_cons.2 ⟨fun other heq hnone => ?_, hwhole⟩, ?_⟩
    · cases heq
      rw [h] at hnone
      cases hnone
    · rw [fieldNames_cons_of_some h, List.nodup_cons]
      exact ⟨hname, honce⟩

/-- A member that belongs to no field does not change what is collected. -/
theorem collects_cons_of_none (h : schema.field? name = none) :
    Collects (value? ((some name, r) :: members)) schema.fields t u ↔
      Collects (value? members) schema.fields t u :=
  collects_congr fun _ hf => value?_cons_of_ne (ne_name_of_field?_eq_none h hf)

/-- The value of a member can be read first, wherever its field is declared. -/
theorem collects_cons_of_some (hschema : schema.Unordered) {f : Field ρ}
    (h : schema.field? name = some f) (hname : name ∉ schema.fieldNames members) :
    Collects (value? ((some name, r) :: members)) schema.fields t u ↔
      ∃ t', f.read r t = .ok t' ∧ Collects (value? members) schema.fields t' u := by
  have hnone : value? members name = none := value?_eq_none (h ▸ rfl) hname
  obtain ⟨hf, rfl⟩ := field?_eq_some h
  exact collects_iff_read_first hschema.names hschema.commutes hf value?_cons_self hnone
    fun g _ hne => value?_cons_of_ne hne

/-- What reading members in their order comes to: whatever the order is, the values of the fields
are collected in the order of declaration. -/
theorem readMembers_eq_ok_iff (hschema : schema.Unordered) {seen seen' : List String} :
    schema.readMembers members seen t = .ok (seen', u) ↔
      schema.Admits members ∧ (∀ name ∈ schema.fieldNames members, name ∉ seen) ∧
        seen' = (schema.fieldNames members).reverse ++ seen ∧
        Collects (value? members) schema.fields t u := by
  induction members generalizing seen t with
  | nil =>
    have hnone : ∀ f ∈ schema.fields, value? [] f.name = none := fun _ _ => rfl
    rw [collects_none hnone, readMembers, Except.ok.injEq, Prod.mk.injEq]
    simp [admits_nil, fieldNames, eq_comm]
  | cons m ms ih =>
    obtain ⟨_ | name, r⟩ := m
    · -- A member without a name is refused at once.
      refine iff_of_false (fun h => ?_) fun h => h.1.named _ List.mem_cons_self rfl
      rw [readMembers] at h
      cases h
    · cases hfield : schema.field? name with
      | none =>
        rw [admits_cons_of_none hfield, fieldNames_cons_of_none hfield,
          collects_cons_of_none hfield, and_assoc, ← ih, readMembers, hfield]
        by_cases hr : r.isWhole = true
        · simp [hr]
        · simp [hr]
      | some f =>
        rw [admits_cons_of_some hfield, fieldNames_cons_of_some hfield, readMembers, hfield]
        -- A name that was seen before is refused on both sides; a new one goes to the fresh ones.
        by_cases hseen : name ∈ seen
        · simp [hseen, mismatch]
        · simp only [List.contains_iff_mem, hseen, if_false, bind_eq_ok_iff, ih]
          rw [List.reverse_cons, List.append_assoc, List.singleton_append, List.forall_mem_cons]
          constructor
          · rintro ⟨t', hread, hadmits, hfresh, hseen', hcollects⟩
            have hname : name ∉ schema.fieldNames ms := fun h => hfresh name h List.mem_cons_self
            refine ⟨⟨hname, hadmits⟩, ⟨hseen, fun n hn h => ?_⟩, hseen', ?_⟩
            · exact hfresh n hn (List.mem_cons_of_mem name h)
            · exact (collects_cons_of_some hschema hfield hname).2 ⟨t', hread, hcollects⟩
          · rintro ⟨⟨hname, hadmits⟩, ⟨-, hfresh⟩, hseen', hcollects⟩
            obtain ⟨t', hread, hrest⟩ := (collects_cons_of_some hschema hfield hname).1 hcollects
            refine ⟨t', hread, hadmits, fun n hn h => ?_, hseen', hrest⟩
            rcases List.mem_cons.1 h with rfl | hmem
            · exact hname hn
            · exact hfresh n hn hmem

/-- The fields that a record must have. -/
def requiredNames (schema : Schema ρ) : List String :=
  (schema.fields.filter fun f => f.presence = .required).map Field.name

/-- The first field that a record must have and to which no member belongs. -/
def lacking? (schema : Schema ρ) (members : List (Option String × Reading)) : Option String :=
  schema.requiredNames.find? fun name => name ∉ schema.fieldNames members

/-- Nothing is lacking exactly if every required field has a member. -/
theorem lacking?_eq_none_iff :
    schema.lacking? members = none ↔
      ∀ name ∈ schema.requiredNames, name ∈ schema.fieldNames members := by
  simp [lacking?, List.find?_eq_none]

/-- The field that is found to be missing once the members have been read. -/
theorem missing?_map (schema : Schema ρ) (members : List (Option String × Reading)) :
    (schema.missing? (schema.fieldNames members).reverse).map Field.name =
      schema.lacking? members := by
  rw [lacking?, requiredNames, List.find?_map, List.find?_filter, missing?]
  simp

/-- An object whose fields can all be read is refused for the first field that it lacks, or read. -/
theorem decode_object (hschema : schema.Unordered) (hadmits : schema.Admits members)
    (hcollects : Collects (value? members) schema.fields schema.blank u) :
    schema.decode (.object members true) =
      (schema.lacking? members).elim (.ok u) fun name => mismatch (.missingField name) := by
  have hread : schema.readMembers members [] schema.blank =
      .ok ((schema.fieldNames members).reverse, u) :=
    (readMembers_eq_ok_iff hschema).2
      ⟨hadmits, fun _ _ => List.not_mem_nil, (List.append_nil _).symm, hcollects⟩
  rw [← missing?_map, decode, hread]
  simp only [bind, Except.bind]
  cases schema.missing? (schema.fieldNames members).reverse <;> rfl

/-- What an object says of a record, whatever the order of its members is. -/
structure Describes (schema : Schema ρ) (members : List (Option String × Reading)) (u : ρ) :
    Prop where
  admits : schema.Admits members
  complete : ∀ name ∈ schema.requiredNames, name ∈ schema.fieldNames members
  collects : Collects (value? members) schema.fields schema.blank u

/-- A record is read from an object exactly if the object describes it. -/
theorem decode_object_eq_ok_iff (hschema : schema.Unordered) :
    schema.decode (.object members true) = .ok u ↔ schema.Describes members u := by
  constructor
  · intro h
    obtain ⟨⟨seen, t⟩, hread, -⟩ := bind_eq_ok_iff.1 h
    obtain ⟨hadmits, -, -, hcollects⟩ := (readMembers_eq_ok_iff hschema).1 hread
    -- All values were read, so it is only a lacking field that could still refuse the object.
    rw [decode_object hschema hadmits hcollects] at h
    cases hlacking : schema.lacking? members with
    | some name =>
      rw [hlacking] at h
      cases h
    | none =>
      rw [hlacking] at h
      cases h
      exact ⟨hadmits, lacking?_eq_none_iff.1 hlacking, hcollects⟩
  · rintro ⟨hadmits, hcomplete, hcollects⟩
    rw [decode_object hschema hadmits hcollects, lacking?_eq_none_iff.2 hcomplete]
    rfl

/-! ## Changes of an object -/

/-- In an admitted object the value of a field is that of its member, wherever it stands. -/
theorem value?_eq_some_iff (hadmits : schema.Admits members) (h : (schema.field? name).isSome) :
    value? members name = some r ↔ (some name, r) ∈ members := by
  rw [value?, List.lookup_eq_some_iff]
  constructor
  · rintro ⟨before, after, rfl, -⟩
    exact List.mem_append_right _ List.mem_cons_self
  · intro hmem
    obtain ⟨before, after, rfl⟩ := List.append_of_mem hmem
    refine ⟨before, after, rfl, fun m hm => ?_⟩
    -- A second member of the field would repeat its name.
    have honce := hadmits.once
    rw [fieldNames, List.filterMap_append, List.filter_append] at honce
    have hne : m.1 ≠ some name := fun heq => (List.nodup_append.1 honce).2.2 _
      (mem_fieldNames_iff.2 ⟨⟨m, hm, heq⟩, h⟩) _
      (mem_fieldNames_iff.2 ⟨⟨_, List.mem_cons_self, rfl⟩, h⟩) rfl
    simpa using hne.symm

/-- Members that change places take their names along. -/
theorem fieldNames_perm (h : members.Perm members') :
    (schema.fieldNames members).Perm (schema.fieldNames members') :=
  (h.filterMap Prod.fst).filter _

/-- An admitted object stays admitted when its members change places. -/
theorem Admits.perm (hadmits : schema.Admits members) (h : members.Perm members') :
    schema.Admits members' where
  named m hm := hadmits.named m (h.mem_iff.2 hm)
  whole m hm := hadmits.whole m (h.mem_iff.2 hm)
  once := (fieldNames_perm h).nodup_iff.1 hadmits.once

theorem isSome_field?_name {f : Field ρ} (hf : f ∈ schema.fields) :
    (schema.field? f.name).isSome :=
  List.find?_isSome.2 ⟨f, hf, beq_self_eq_true _⟩

/-- The value of a field does not change when members change places. -/
theorem value?_perm (hadmits : schema.Admits members) (h : members.Perm members')
    (hname : (schema.field? name).isSome) : value? members name = value? members' name := by
  refine Option.ext fun r => ?_
  rw [value?_eq_some_iff hadmits hname, value?_eq_some_iff (hadmits.perm h) hname, h.mem_iff]

/-- The order of the members does not matter. -/
theorem Describes.perm (hu : schema.Describes members u) (h : members.Perm members') :
    schema.Describes members' u where
  admits := hu.admits.perm h
  complete name hname := (fieldNames_perm h).mem_iff.1 (hu.complete name hname)
  collects := (collects_congr fun _ hf =>
    value?_perm hu.admits h (isSome_field?_name hf)).1 hu.collects

/-- Members that belong to no field do not matter. -/
theorem describes_cons_of_none (hname : schema.field? name = none) (hr : r.isWhole = true) :
    schema.Describes ((some name, r) :: members) u ↔ schema.Describes members u := by
  constructor
  · rintro ⟨hadmits, hcomplete, hcollects⟩
    rw [fieldNames_cons_of_none hname] at hcomplete
    exact ⟨((admits_cons_of_none hname).1 hadmits).2, hcomplete,
      (collects_cons_of_none hname).1 hcollects⟩
  · rintro ⟨hadmits, hcomplete, hcollects⟩
    refine ⟨(admits_cons_of_none hname).2 ⟨hr, hadmits⟩, ?_,
      (collects_cons_of_none hname).2 hcollects⟩
    rwa [fieldNames_cons_of_none hname]

/-- A member with a default can be left out. -/
theorem Describes.of_cons_default (hschema : schema.Unordered)
    (hu : schema.Describes ((some name, r) :: members) u) {f : Field ρ}
    (hname : schema.field? name = some f) (hoptional : f.presence = .optional)
    (hr : f.read r schema.blank = .ok schema.blank) : schema.Describes members u := by
  obtain ⟨hfresh, hadmits⟩ := (admits_cons_of_some hname).1 hu.admits
  obtain ⟨t', hread, hcollects⟩ := (collects_cons_of_some hschema hname hfresh).1 hu.collects
  rw [hr] at hread
  cases hread
  refine ⟨hadmits, fun other hother => ?_, hcollects⟩
  have hmem := hu.complete other hother
  rw [fieldNames_cons_of_some hname] at hmem
  refine (List.mem_cons.1 hmem).resolve_left ?_
  -- What is required is not optional, so it is not the member that was left out.
  rintro rfl
  obtain ⟨g, hg, hsame⟩ := List.mem_map.1 hother
  obtain ⟨hg, hrequired⟩ := List.mem_filter.1 hg
  have hfound : schema.field? g.name = some g := find?_name hschema.names hg
  rw [hsame, hname] at hfound
  cases hfound
  rw [hoptional] at hrequired
  cases hrequired

/-! ## Objects that lack members -/

/-- The members but those with one of the names. -/
def without (members : List (Option String × Reading)) (removed : List String) :
    List (Option String × Reading) :=
  members.filter fun m => m.1 ∉ removed.map some

/-- A member is left if its name is not one of those removed. -/
theorem mem_without {removed : List String} {m : Option String × Reading}
    (hname : m.1 = some name) :
    m ∈ without members removed ↔ m ∈ members ∧ name ∉ removed := by
  rw [without, List.mem_filter, decide_eq_true_iff, hname, List.mem_map_of_injective]
  exact Option.some_injective _

/-- An admitted object stays admitted when it loses members. -/
theorem Admits.without (hadmits : schema.Admits members) (removed : List String) :
    schema.Admits (without members removed) where
  named m hm := hadmits.named m (List.mem_of_mem_filter hm)
  whole m hm := hadmits.whole m (List.mem_of_mem_filter hm)
  once := hadmits.once.sublist ((List.filter_sublist.filterMap _).filter _)

/-- The names that are left are those that were not removed. -/
theorem mem_fieldNames_without {removed : List String} :
    name ∈ schema.fieldNames (without members removed) ↔
      name ∈ schema.fieldNames members ∧ name ∉ removed := by
  simp only [mem_fieldNames_iff]
  constructor
  · rintro ⟨⟨m, hm, hn⟩, hfield⟩
    obtain ⟨hm, hkept⟩ := (mem_without hn).1 hm
    exact ⟨⟨⟨m, hm, hn⟩, hfield⟩, hkept⟩
  · rintro ⟨⟨⟨m, hm, hn⟩, hfield⟩, hkept⟩
    exact ⟨⟨m, (mem_without hn).2 ⟨hm, hkept⟩, hn⟩, hfield⟩

/-- What is left keeps its value. -/
theorem value?_without (hadmits : schema.Admits members) (hname : (schema.field? name).isSome)
    (removed : List String) :
    value? (without members removed) name = value? members name ∨
      value? (without members removed) name = none := by
  by_cases hremoved : name ∈ removed
  · exact Or.inr (value?_eq_none hname fun h => (mem_fieldNames_without.1 h).2 hremoved)
  · refine Or.inl (Option.ext fun r => ?_)
    rw [value?_eq_some_iff (hadmits.without removed) hname, value?_eq_some_iff hadmits hname,
      mem_without rfl]
    exact and_iff_left hremoved

/-- An object that lacks required members is refused for the first of them, and not for any of the
members that are left. -/
theorem Describes.decode_of_missing (hschema : schema.Unordered) (hu : schema.Describes members u)
    {removed : List String} (hperm : members'.Perm (without members removed))
    (hmissing : schema.requiredNames.find? (fun n => n ∈ removed) = some name) :
    schema.decode (.object members' true) = mismatch (.missingField name) := by
  have hadmits : schema.Admits members' := (hu.admits.without removed).perm hperm.symm
  have hfewer : ∀ f ∈ schema.fields,
      value? members' f.name = value? members f.name ∨ value? members' f.name = none := by
    intro f hf
    rw [value?_perm hadmits hperm (isSome_field?_name hf)]
    exact value?_without hu.admits (isSome_field?_name hf) removed
  obtain ⟨t, hcollects⟩ := hu.collects.of_fewer hschema.steady hfewer schema.blank
  -- Every required field had a member before, so those that are lacking now are those removed.
  have hfirst : schema.lacking? members' = some name := by
    rw [← hmissing]
    refine List.find?_congr fun n hn => ?_
    have hlacks : n ∈ schema.fieldNames members' ↔ n ∉ removed := by
      rw [(fieldNames_perm hperm).mem_iff, mem_fieldNames_without]
      exact and_iff_right (hu.complete n hn)
    simp [hlacks]
  rw [decode_object hschema hadmits hcollects, hfirst]
  rfl

/-! ## Arrays -/

/-- An array may end where only optional fields are left. -/
theorem readItems_nil (hoptional : ∀ f ∈ fields, f.presence = .optional) (index : Nat) :
    schema.readItems true fields index [] t = .ok t := by
  induction fields generalizing index with
  | nil => rfl
  | cons f fs ih =>
    rw [List.forall_mem_cons] at hoptional
    rw [readItems, if_pos hoptional.1]
    exact ih hoptional.2 (index + 1)

/-- Items for the fields up to some place lead to the record that the values collect to, if only
defaults are left from there on. -/
theorem readItems_of_collects {blank : ρ} {shown left : List (Field ρ)} {items : List Reading}
    (hcommutes : (shown ++ left).Pairwise Field.Commutes) (hidle : Idle blank (shown ++ left) t)
    (hshown : List.Forall₂ (fun f item => f.Shows blank (values f.name) item) shown items)
    (hleft : ∀ f ∈ left, f.presence = .optional ∧ f.Defaults blank (values f.name))
    (h : Collects values (shown ++ left) t u) (index : Nat) :
    schema.readItems true (shown ++ left) index items t = .ok u := by
  -- By induction on the items; what they are read into stays idle (`Idle.of_readValue`).
  induction hshown generalizing t index with
  | nil =>
    have hsame : t = u := h.eq_of_defaults hidle fun f hf => (hleft f hf).2
    rw [hsame]
    exact readItems_nil (fun f hf => (hleft f hf).1) index
  | @cons f item shown items hitem _ ih =>
    obtain ⟨t', hread, hrest⟩ := h
    rw [List.cons_append, List.pairwise_cons] at hcommutes
    have hidle' : Idle blank (shown ++ left) t := fun g hg => hidle g (List.mem_cons_of_mem f hg)
    have hfirst : f.read item t = .ok t' := by
      rcases hitem with hvalue | ⟨hnone, hdefault⟩
      · rwa [hvalue] at hread
      · -- There is no value, so the record is still as it was when the default is read.
        rw [hnone] at hread
        cases hread
        exact hidle f List.mem_cons_self item hdefault
    rw [List.cons_append, readItems, hfirst]
    exact ih hcommutes.2 (hidle'.of_readValue hcommutes.1 hread) hrest (index + 1)

/-- An array that shows the values of an object, up to some place from which on only defaults are
left, is read to the same record. -/
theorem Describes.decode_array (hschema : schema.Unordered) (hu : schema.Describes members u)
    {shown left : List (Field ρ)} {items : List Reading} (hfields : schema.fields = shown ++ left)
    (hshown : List.Forall₂
      (fun f item => f.Shows schema.blank (value? members f.name) item) shown items)
    (hleft : ∀ f ∈ left,
      f.presence = .optional ∧ f.Defaults schema.blank (value? members f.name)) :
    schema.decode (.array items true) = .ok u := by
  have hcommutes : (shown ++ left).Pairwise Field.Commutes := hfields ▸ hschema.commutes
  have hcollects : Collects (value? members) (shown ++ left) schema.blank u :=
    hfields ▸ hu.collects
  rw [decode, hfields]
  exact readItems_of_collects hcommutes (fun _ _ _ hr => hr) hshown hleft hcollects 0

end Schema
end Json
end TurtleCurves
