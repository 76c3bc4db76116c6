import TurtleCurves.Grammar.Json
import TurtleCurves.Proofs.Validation

/-!
# Records are read as they are written

`Rereads` says that a single value is read back from what is written of it. A `Codec` puts together
how the values of a type are read and written, which doubles they hold and which `Shape` they have
in a document, and it is `Faithful` if every value with finite doubles has that shape and is read
back.

A schema writes a record as an object with all its fields in the order of declaration. Reading that
object reads the fields one after the other into the blank record (`Schema.decode_encode`), because
every member belongs to a field, none comes twice and none is missing. So a record is read back if
the values of its fields are, and if the fields say everything about it: `Schema.Carries` goes
through the fields of a record, from the blank record to the record itself.
-/

namespace TurtleCurves

namespace Json

/-- The value is read back from what is written of it. -/
def Rereads {τ : Type} (decode : Decoder τ) (encode : τ → Json) (v : τ) : Prop :=
  decode (encode v).reading = .ok v

theorem rereads_text (s : String) : Rereads decodeText .text s := rfl

/-- A whole number with sign is read back, since it is within the range that the reader allows. -/
theorem rereads_int64 (n : Int64) : Rereads decodeInt64 ofInt64 n := by
  have hlower : -2 ^ 63 ≤ n.toInt := n.le_toInt
  have hupper : n.toInt < 2 ^ 63 := n.toInt_lt
  have hrange : -(negativeMax : Int) ≤ n.toInt ∧ n.toInt < negativeMax := by
    have hmax : (negativeMax : Int) = 2 ^ 63 := rfl
    omega
  show (if _ then Except.ok (Int64.ofInt n.toInt) else _) = _
  rw [if_pos hrange, Int64.ofInt_toInt]

/-- A double is finite for the writer if no check of numbers refuses it. -/
theorem isFinite_iff (x : Float) : x.isFinite = true ↔ NonFinite.of? x = none := by
  have hfinite : x.isFinite = x.toModel.unpack.isFinite := rfl
  have hnan : x.isNaN = x.toModel.unpack.isNaN := rfl
  have hinf : x.isInf = x.toModel.unpack.isInf := rfl
  rw [NonFinite.of?, hfinite, hnan, hinf]
  cases x.toModel.unpack with
  | notANumber | infinity sign => exact iff_of_false Bool.false_ne_true (Option.some_ne_none _)
  | zero sign | finite sign mantissa exponent hpos => exact iff_of_true rfl rfl

/-- Only the doubles that are not finite are lost in writing. -/
theorem rereads_float {x : Float} (h : NonFinite.of? x = none) : Rereads decodeFloat ofFloat x := by
  rw [Rereads, ofFloat, if_pos ((isFinite_iff x).2 h)]
  rfl

/-- A map is read back in the order in which it is written, with all that is repeated. -/
theorem rereads_members {τ : Type} {decode : Decoder τ} {encode : τ → Json}
    {members : List (String × τ)} (h : ∀ m ∈ members, Rereads decode encode m.2) :
    Rereads (decodeMap decode) (fun ms => .object (ms.map fun m => (m.1, encode m.2))) members := by
  have hmembers : decodeMembers decode (readingMembers (members.map fun m => (m.1, encode m.2))) =
      .ok members := by
    induction members with
    | nil => rfl
    | cons m ms ih =>
      rw [List.map_cons, readingMembers, decodeMembers, h m List.mem_cons_self,
        ih fun m' hm' => h m' (List.mem_cons_of_mem m hm')]
      rfl
  rw [Rereads, reading, decodeMap, hmembers]
  rfl

/-! ## Shapes -/

/-- What the values of a type look like in a document. -/
inductive Shape
  | real
  | integer
  | text
  /-- A value or `null`. -/
  | optional (value : Shape)
  /-- An array of so many doubles. -/
  | row (count : Nat)
  /-- An array of any length. -/
  | list (item : Shape)
  /-- An object with these members in this order. -/
  | record (members : List (String × Shape))
  /-- One of the bare names, or an object whose only member is one of the other names with its
  payload. -/
  | choice (bare : List String) (carrying : List (String × Shape))

/-- The value has the shape. -/
inductive Fits : Json → Shape → Prop
  | real (x : Float) : Fits (.real x) .real
  | integer (n : Int) : Fits (.integer n) .integer
  | text (s : String) : Fits (.text s) .text
  | absent (shape : Shape) : Fits .null (.optional shape)
  | present {v : Json} {shape : Shape} (h : Fits v shape) : Fits v (.optional shape)
  | row (xs : List Float) : Fits (.array (xs.map .real)) (.row xs.length)
  | list {items : List Json} {shape : Shape} (h : ∀ v ∈ items, Fits v shape) :
      Fits (.array items) (.list shape)
  | noMember : Fits (.object []) (.record [])
  | member {name : String} {v : Json} {shape : Shape} {members : List (String × Json)}
      {shapes : List (String × Shape)} (h : Fits v shape)
      (hrest : Fits (.object members) (.record shapes)) :
      Fits (.object ((name, v) :: members)) (.record ((name, shape) :: shapes))
  | bare {name : String} {names : List String} {shapes : List (String × Shape)}
      (h : name ∈ names) : Fits (.text name) (.choice names shapes)
  | carrying {name : String} {v : Json} {shape : Shape} {names : List String}
      {shapes : List (String × Shape)} (hname : (name, shape) ∈ shapes) (h : Fits v shape) :
      Fits (.object [(name, v)]) (.choice names shapes)

/-! ## Codecs -/

/-- How the values of a type are read and written, the doubles that they hold and what they look
like in a document. -/
structure Codec (τ : Type) where
  decode : Decoder τ
  encode : τ → Json
  numbers : τ → List Float
  shape : Shape

namespace Codec

variable {τ : Type}

/-- The value is written in the shape of its type and read back. -/
structure Keeps (codec : Codec τ) (v : τ) : Prop where
  fits : Fits (codec.encode v) codec.shape
  rereads : Rereads codec.decode codec.encode v

/-- Every value with finite numbers is written in the shape of its type and read back. -/
def Faithful (codec : Codec τ) : Prop :=
  ∀ v, (∀ x ∈ codec.numbers v, x.isFinite = true) → codec.Keeps v

/-- Doubles. -/
def double : Codec Float :=
  ⟨decodeFloat, ofFloat, fun x => [x], .real⟩

/-- Whole numbers of 64 bits without sign. -/
def uint64 : Codec UInt64 :=
  ⟨decodeUInt64, ofUInt64, fun _ => [], .integer⟩

/-- Whole numbers of 64 bits with sign. -/
def int64 : Codec Int64 :=
  ⟨decodeInt64, ofInt64, fun _ => [], .integer⟩

/-- Strings. -/
def string : Codec String :=
  ⟨decodeText, .text, fun _ => [], .text⟩

/-- A finite double is written as a number and read back. -/
theorem keeps_double {x : Float} (h : x.isFinite = true) : double.Keeps x where
  fits := by
    change Fits (ofFloat x) .real
    rw [ofFloat, if_pos h]
    exact .real x
  rereads := rereads_float ((isFinite_iff x).1 h)

/-- A whole number without sign is read back, since it does not exceed the greatest word. -/
theorem keeps_uint64 (n : UInt64) : uint64.Keeps n where
  fits := .integer _
  rereads := by
    have hle : (n.toNat : Int) ≤ wordMax := by
      have hlt := n.toNat_lt
      have hmax : wordMax = 2 ^ 64 - 1 := rfl
      omega
    change (if _ then Except.ok (UInt64.ofNat (n.toNat : Int).toNat) else _) = _
    rw [if_pos ⟨Int.natCast_nonneg _, hle⟩, Int.toNat_natCast, UInt64.ofNat_toNat]

theorem keeps_int64 (n : Int64) : int64.Keeps n where
  fits := .integer _
  rereads := rereads_int64 n

theorem keeps_string (s : String) : string.Keeps s where
  fits := .text s
  rereads := rereads_text s

end Codec

/-! ## Schemas -/

/-- What has a name of its own is found by it. -/
theorem find?_name {γ : Type} {name : γ → String} {xs : List γ} (hnames : (xs.map name).Nodup)
    {x : γ} (hx : x ∈ xs) : (xs.find? fun y => name y == name x) = some x := by
  cases hfind : xs.find? fun y => name y == name x with
  | none =>
    have hne := List.find?_eq_none.1 hfind x hx
    simp at hne
  | some y =>
    have hname : name y = name x := by
      simpa using List.find?_some hfind
    rw [List.inj_on_of_nodup_map hnames (List.mem_of_find?_eq_some hfind) hx hname]

namespace Schema

variable {ρ : Type} {schema : Schema ρ} {done todo : List (Field ρ)} {f : Field ρ}

/-- Reads what `record` has in the fields into `target`, one field after the other. -/
def transfer (fields : List (Field ρ)) (record target : ρ) : Except Problem ρ :=
  fields.foldlM (fun target f => f.read (f.write record).reading target) target

/-- A first field that is read back is set in the target, and the others follow. -/
theorem transfer_cons {τ : Type} {name : String} {presence : Presence} {decode : Decoder τ}
    {encode : τ → Json} {get : ρ → τ} {set : ρ → τ → ρ} {fields : List (Field ρ)} {record : ρ}
    (h : Rereads decode encode (get record)) (target : ρ) :
    transfer (.of name presence decode encode get set :: fields) record target =
      transfer fields record (set target (get record)) := by
  have hread : (Field.of name presence decode encode get set).read
      ((Field.of name presence decode encode get set).write record).reading target =
        .ok (set target (get record)) := by
    show (decode (encode (get record)).reading).map (set target) = _
    rw [h]
    rfl
  rw [transfer, List.foldlM_cons, hread]
  rfl

/-- A field does not have the name of one before it. -/
theorem name_not_mem (hnames : (schema.fields.map Field.name).Nodup)
    (hfields : schema.fields = done ++ f :: todo) : f.name ∉ done.map Field.name := by
  rw [hfields, List.map_append, List.map_cons] at hnames
  exact fun hmem => (List.nodup_append.1 hnames).2.2 _ hmem _ List.mem_cons_self rfl

/-- Where no name stands twice, a field is found by its name. -/
theorem field?_name (hnames : (schema.fields.map Field.name).Nodup)
    (hfields : schema.fields = done ++ f :: todo) : schema.field? f.name = some f := by
  have hmem : f ∈ schema.fields := by
    rw [hfields]
    exact List.mem_append_right done List.mem_cons_self
  exact find?_name hnames hmem

/-- The members of the fields that are left are read into their fields. -/
theorem readMembers_written (hnames : (schema.fields.map Field.name).Nodup)
    {done todo : List (Field ρ)} (hfields : schema.fields = done ++ todo) (record target : ρ) :
    schema.readMembers (readingMembers (todo.map fun f => (f.name, f.write record)))
        (done.map Field.name).reverse target =
      (transfer todo record target).map fun t => ((schema.fields.map Field.name).reverse, t) := by
  induction todo generalizing done target with
  | nil => rw [hfields, List.append_nil]; rfl
  | cons f todo ih =>
    -- The names that were seen are those of the fields that are done, and `f` is none of them.
    have hseen : (done.map Field.name).reverse.contains f.name = false := by
      rw [Bool.eq_false_iff, ne_eq, List.contains_iff_mem, List.mem_reverse]
      exact name_not_mem hnames hfields
    rw [List.map_cons, readingMembers, readMembers, field?_name hnames hfields]
    simp only [hseen, Bool.false_eq_true, if_false]
    rw [transfer, List.foldlM_cons]
    cases f.read (f.write record).reading target with
    | error e => rfl
    | ok next =>
      have hfields' : schema.fields = (done ++ [f]) ++ todo := by
        rw [hfields, List.append_assoc, List.singleton_append]
      have hnext := ih hfields' next
      rw [List.map_append, List.reverse_append] at hnext
      exact hnext

/-- An object with all fields is read field by field into the blank record. -/
theorem decode_encode (hnames : (schema.fields.map Field.name).Nodup) (record : ρ) :
    schema.decode (schema.encode record).reading =
      transfer schema.fields record schema.blank := by
  have hfields : schema.fields = [] ++ schema.fields := rfl
  have hmembers := readMembers_written hnames hfields record schema.blank
  -- Every field was written, so every name was seen.
  have hmissing : schema.missing? (schema.fields.map Field.name).reverse = none := by
    rw [missing?, List.find?_eq_none]
    intro f hf
    have hmem : f.name ∈ (schema.fields.map Field.name).reverse :=
      List.mem_reverse.2 (List.mem_map_of_mem hf)
    simp only [List.contains_iff_mem.2 hmem, Bool.not_true, Bool.and_false, Bool.false_eq_true,
      not_false_iff]
  rw [encode, reading, decode]
  change schema.readMembers _ [] _ = _ at hmembers
  rw [hmembers]
  cases transfer schema.fields record schema.blank with
  | error e => rfl
  | ok t => simp [bind, Except.bind, Except.map, hmissing]

/-- Each field of the record is written in its shape and read back, and reading them into `target`
one after the other gives `result`. -/
inductive Carries (record : ρ) : List (Field ρ) → List (String × Shape) → ρ → ρ → Prop
  | nil (result : ρ) : Carries record [] [] result result
  | cons {τ : Type} {codec : Codec τ} {name : String} {presence : Presence} {get : ρ → τ}
      {set : ρ → τ → ρ} {fields : List (Field ρ)} {shapes : List (String × Shape)}
      {target result : ρ} (h : codec.Keeps (get record))
      (hrest : Carries record fields shapes (set target (get record)) result) :
      Carries record (.of name presence codec.decode codec.encode get set :: fields)
        ((name, codec.shape) :: shapes) target result

/-- A record whose fields have their shapes has the shape of their list. -/
theorem Carries.fits {record target result : ρ} {fields : List (Field ρ)}
    {shapes : List (String × Shape)} (h : Carries record fields shapes target result) :
    Fits (.object (fields.map fun f => (f.name, f.write record))) (.record shapes) := by
  induction h with
  | nil => exact .noMember
  | cons hfirst _ ih => exact .member hfirst.fits ih

/-- Reading the fields one after the other ends with the result. -/
theorem Carries.transfer_eq {record target result : ρ} {fields : List (Field ρ)}
    {shapes : List (String × Shape)} (h : Carries record fields shapes target result) :
    transfer fields record target = .ok result := by
  induction h with
  | nil => rfl
  | cons hfirst _ ih => rw [transfer_cons hfirst.rereads, ih]

end Schema

namespace Codec

variable {ρ : Type}

/-- Records of a schema. -/
def record (schema : Schema ρ) (numbers : ρ → List Float) (shapes : List (String × Shape)) :
    Codec ρ :=
  ⟨schema.decode, schema.encode, numbers, .record shapes⟩

/-- A record is read back if its fields are and say everything about it. -/
theorem keeps_record {schema : Schema ρ} {numbers : ρ → List Float}
    {shapes : List (String × Shape)} (hnames : (schema.fields.map Field.name).Nodup) {v : ρ}
    (h : Schema.Carries v schema.fields shapes schema.blank v) :
    (record schema numbers shapes).Keeps v where
  fits := h.fits
  rereads := (Schema.decode_encode hnames v).trans h.transfer_eq

end Codec

end Json

open Json

namespace GrammarRecord

/-- Grammar records as objects with eight members. -/
def codec : Codec GrammarRecord :=
  .record schema (fun r => [r.rotationAngle, r.startingAngle, r.coefficient])
    [("axiom", .text), ("axiom_multiplier", .integer), ("rules", .text),
      ("rotation_angle", .real), ("nb_iter", .integer), ("skipped", .text),
      ("starting_angle", .real), ("coeff", .real)]

/-- Grammar records are read back. -/
theorem faithful : codec.Faithful := by
  intro r hr
  have hnumbers : ∀ x ∈ [r.rotationAngle, r.startingAngle, r.coefficient], x.isFinite = true := hr
  have hrotation : Codec.double.Keeps r.rotationAngle := Codec.keeps_double (hnumbers _ (by simp))
  have hstarting : Codec.double.Keeps r.startingAngle := Codec.keeps_double (hnumbers _ (by simp))
  have hcoefficient : Codec.double.Keeps r.coefficient :=
    Codec.keeps_double (hnumbers _ (by simp))
  refine Codec.keeps_record (by decide) ?_
  exact .cons (Codec.keeps_string _) <| .cons (Codec.keeps_int64 _) <|
    .cons (Codec.keeps_string _) <| .cons hrotation <| .cons (Codec.keeps_int64 _) <|
    .cons (Codec.keeps_string _) <| .cons hstarting <| .cons hcoefficient <| .nil _

/-- A record with finite numbers is read back, whatever else it holds. -/
theorem rereads {record : GrammarRecord} (h : record.motion.IsFinite) :
    Rereads schema.decode schema.encode record := by
  refine (faithful record fun x hx => (isFinite_iff x).2 ?_).rereads
  have hmem : x ∈ [record.rotationAngle, record.startingAngle, record.coefficient] := hx
  simp only [List.mem_cons, List.not_mem_nil, or_false] at hmem
  rcases hmem with rfl | rfl | rfl
  · exact h.rotationAngle
  · exact h.startingAngle
  · exact h.scaleCoefficient

end GrammarRecord

end TurtleCurves
