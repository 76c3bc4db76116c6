import Mathlib.Logic.Relation
import TurtleCurves.Proofs.Catalogs
import TurtleCurves.Proofs.Members

/-!
# Forms of a grammar record

The same grammar record can be given in many forms. `Restated` is one change of form: members of an
object change places, a member is added that belongs to no field, one that has its default is left
out, or the object gives way to an array of its values. Any number of such changes leaves the record
as it is (`decode_of_restated`), because each of them does (`Restated.decode`). Only objects are
changed, so each step starts from what an object says of a record whatever the order of its members
is.

A record that lacks required members is refused for the first of them in the order of declaration.
All that is left of the object could be read before, and is read again without what is missing.

What a value comes to in a document follows from what it comes to by itself (`Yields`).
-/

namespace TurtleCurves

namespace Json

/-- Members are read behind others that can be read. -/
theorem decodeMembers_append {τ : Type} {decode : Decoder τ}
    {before after : List (Option String × Reading)} {entries : List (String × τ)}
    (h : decodeMembers decode before = .ok entries) :
    decodeMembers decode (before ++ after) = (decodeMembers decode after).map (entries ++ ·) := by
  induction before generalizing entries with
  | nil =>
    cases h
    rw [List.nil_append]
    cases decodeMembers decode after <;> rfl
  | cons m ms ih =>
    obtain ⟨_ | name, r⟩ := m
    · cases h
    · obtain ⟨value, hvalue, h⟩ := bind_eq_ok_iff.1 h
      obtain ⟨rest, hrest, h⟩ := bind_eq_ok_iff.1 h
      cases h
      rw [List.cons_append, decodeMembers, hvalue, ih hrest]
      cases decodeMembers decode after <;> rfl

end Json

open Json Relation

namespace GrammarRecord

/-! ## Members -/

/-- The members of a grammar record in the order of declaration. -/
def memberNames : List String :=
  ["axiom", "axiom_multiplier", "rules", "rotation_angle", "nb_iter", "skipped", "starting_angle",
    "coeff"]

/-- The members that a grammar record must have, in the order of declaration. -/
def requiredMembers : List String :=
  ["axiom", "rotation_angle", "nb_iter"]

/-- The member has the value that a grammar record without it takes. Minus zero is not among these
values, for a record without the member would have lost the sign. -/
inductive IsDefault : String → Reading → Prop
  | startRepeat {r : Reading} (h : decodeInt64 r = .ok 1) : IsDefault "axiom_multiplier" r
  | rules {r : Reading} (h : decodeText r = .ok "") : IsDefault "rules" r
  | skipped {r : Reading} (h : decodeText r = .ok "") : IsDefault "skipped" r
  | startingAngle {r : Reading} (h : decodeFloat r = .ok 0) : IsDefault "starting_angle" r
  | coefficient {r : Reading} (h : decodeFloat r = .ok 1) : IsDefault "coeff" r

variable {members members' : List (Option String × Reading)} {name : String} {r form : Reading}
  {record : GrammarRecord}

/-- Grammar records can be read in any order. -/
theorem unordered : schema.Unordered where
  names := by decide
  commutes := by
    simp only [schema, List.pairwise_cons, List.forall_mem_cons, List.not_mem_nil, false_imp_iff,
      implies_true, List.Pairwise.nil, and_true]
    and_intros <;> exact Field.commutes_of fun _ _ _ => rfl
  steady := by
    simp only [schema, List.forall_mem_cons, List.not_mem_nil, false_imp_iff, implies_true,
      and_true]
    and_intros <;> exact Field.steady_of

/-- A name that no member of a grammar record has belongs to no field. -/
theorem field?_eq_none (h : name ∉ memberNames) : schema.field? name = none := by
  rw [Schema.field?, List.find?_eq_none]
  intro f hf heq
  have hname : f.name ∈ memberNames := List.mem_map_of_mem (f := Field.name) hf
  exact h ((beq_iff_eq.1 heq) ▸ hname)

/-- Every member that is not required is optional. -/
theorem presence_of_not_required :
    ∀ f ∈ schema.fields, f.name ∉ requiredMembers → f.presence = .optional := by
  decide

/-- A default is read without changing the blank record. -/
theorem IsDefault.field (h : IsDefault name r) : ∃ f, schema.field? name = some f ∧
    f.presence = .optional ∧ f.read r schema.blank = .ok schema.blank := by
  cases h with
  | startRepeat h | rules h | skipped h | startingAngle h | coefficient h =>
    refine ⟨_, rfl, rfl, ?_⟩
    simp only [Field.of, h]
    rfl

/-! ## Forms -/

/-- The items are the values of the members with these names, or their defaults. -/
def Shows (members : List (Option String × Reading)) : List String → List Reading → Prop :=
  List.Forall₂ fun name item => (some name, item) ∈ members ∨
    (∀ m ∈ members, m.1 ≠ some name) ∧ IsDefault name item

/-- One change of the form in which a grammar record is given. -/
inductive Restated : Reading → Reading → Prop
  | permute {members members' : List (Option String × Reading)} (h : members.Perm members') :
      Restated (.object members true) (.object members' true)
  /-- A member of any other name holds any complete value. -/
  | insert {before after : List (Option String × Reading)} {name : String} {r : Reading}
      (hname : name ∉ memberNames) (hr : r.isWhole = true) :
      Restated (.object (before ++ after) true) (.object (before ++ (some name, r) :: after) true)
  | drop {before after : List (Option String × Reading)} {name : String} {r : Reading}
      (h : IsDefault name r) :
      Restated (.object (before ++ (some name, r) :: after) true) (.object (before ++ after) true)
  /-- The array leaves out members at the end that are absent or have their default. -/
  | list {members : List (Option String × Reading)} {shown left : List String}
      {items : List Reading} (hnames : shown ++ left = memberNames)
      (hshown : Shows members shown items)
      (hleft : ∀ name ∈ left,
        name ∉ requiredMembers ∧ ∀ r, (some name, r) ∈ members → IsDefault name r) :
      Restated (.object members true) (.array items true)

/-- An array of the values of an object is read to the same record. -/
theorem decode_array (h : schema.Describes members record) {shown left : List String}
    {items : List Reading} (hnames : shown ++ left = memberNames)
    (hshown : Shows members shown items)
    (hleft : ∀ name ∈ left,
      name ∉ requiredMembers ∧ ∀ r, (some name, r) ∈ members → IsDefault name r) :
    schema.decode (.array items true) = .ok record := by
  -- The names are split where the items end, and so are the fields.
  obtain ⟨shownFields, leftFields, hfields, rfl, rfl⟩ := List.map_eq_append_iff.1
    (show schema.fields.map Field.name = shown ++ left from hnames.symm)
  have hmem : ∀ f ∈ schema.fields, schema.field? f.name = some f := fun f hf =>
    find?_name unordered.names hf
  have hdefault : ∀ f ∈ schema.fields, ∀ r, IsDefault f.name r →
      f.read r schema.blank = .ok schema.blank := by
    intro f hf r hr
    obtain ⟨g, hg, -, hread⟩ := hr.field
    rw [hmem f hf] at hg
    cases hg
    exact hread
  have hvalue : ∀ f ∈ schema.fields, ∀ r,
      Schema.value? members f.name = some r ↔ (some f.name, r) ∈ members := fun f hf r =>
    Schema.value?_eq_some_iff h.admits (Schema.isSome_field?_name hf)
  refine h.decode_array unordered hfields ?_ fun f hf => ?_
  · rw [Shows, List.forall₂_map_left_iff] at hshown
    have hshown' := (List.forall₂_and_left (p := fun f => f ∈ schema.fields) _ _).2
      ⟨fun f hf => hfields ▸ List.mem_append_left _ hf, hshown⟩
    refine hshown'.imp fun f item hitem => ?_
    obtain ⟨hf, hgiven | ⟨habsent, hr⟩⟩ := hitem
    · exact Or.inl ((hvalue f hf item).2 hgiven)
    · refine Or.inr ⟨Option.eq_none_iff_forall_ne_some.2 fun r hr => ?_, hdefault f hf item hr⟩
      exact habsent _ ((hvalue f hf r).1 hr) rfl
  · have hf' : f ∈ schema.fields := hfields ▸ List.mem_append_right _ hf
    obtain ⟨hnot, hgiven⟩ := hleft f.name (List.mem_map_of_mem hf)
    exact ⟨presence_of_not_required f hf' hnot, fun r hr =>
      hdefault f hf' r (hgiven r ((hvalue f hf' r).1 hr))⟩

/-- A change of form does not change the record. -/
theorem Restated.decode (h : Restated r form) (hr : schema.decode r = .ok record) :
    schema.decode form = .ok record := by
  cases h with
  | permute h =>
    rw [Schema.decode_object_eq_ok_iff unordered] at hr ⊢
    exact hr.perm h
  | insert hname hwhole =>
    rw [Schema.decode_object_eq_ok_iff unordered] at hr ⊢
    -- The new member is put in front of all others and then moved to its place.
    have hfront := (Schema.describes_cons_of_none (field?_eq_none hname) hwhole).2 hr
    exact hfront.perm List.perm_middle.symm
  | drop h =>
    rw [Schema.decode_object_eq_ok_iff unordered] at hr ⊢
    obtain ⟨f, hf, hoptional, hread⟩ := h.field
    exact (hr.perm List.perm_middle).of_cons_default unordered hf hoptional hread
  | list hnames hshown hleft =>
    rw [Schema.decode_object_eq_ok_iff unordered] at hr
    exact decode_array hr hnames hshown hleft

/-- Any number of changes of form leave the record as it is. -/
theorem decode_of_restated (h : ReflTransGen Restated r form)
    (hr : schema.decode r = .ok record) : schema.decode form = .ok record := by
  induction h with
  | refl => exact hr
  | tail _ hstep ih => exact hstep.decode ih

/-! ## Documents -/

/-- What reading a value comes to: by itself, as all of a document, and in the document of a
catalog, where the entries before it can be read. -/
structure Yields (r : Reading) (outcome : Except Problem GrammarRecord) : Prop where
  decode : schema.decode r = outcome
  document : ∀ text, Document.ofText text = ⟨r, true⟩ →
    decodeDocument schema.decode text = outcome
  entry : ∀ text before after name entries, decodeMembers schema.decode before = .ok entries →
    Document.ofText text = ⟨.object (before ++ (some name, r) :: after) true, true⟩ →
    Catalog.ofText text = Except.mapError .badCatalog do
      let record ← outcome
      let entries' ← decodeMembers schema.decode after
      return Catalog.ofList (entries ++ (name, record) :: entries')

/-- Reading the value by itself decides how it is read in a document. -/
theorem yields_of_decode {outcome : Except Problem GrammarRecord}
    (h : schema.decode r = outcome) : Yields r outcome where
  decode := h
  document text htext := by
    rw [decodeDocument, htext]
    show (schema.decode r).bind (fun value => .ok value) = outcome
    rw [h]
    cases outcome <;> rfl
  entry text before after name entries hbefore htext := by
    rw [Catalog.ofText, decodeDocument, htext]
    show Except.mapError _ (((decodeMembers schema.decode _).bind _).map _ |>.bind _) = _
    -- The entries before it can be read, so the value is the first that may fail.
    rw [decodeMembers_append hbefore, decodeMembers, h]
    cases outcome with
    | error e => rfl
    | ok record => cases decodeMembers schema.decode after <;> rfl

end GrammarRecord

open GrammarRecord in
/-- An object from which a record is read can change its form in any way and any number of times
and is still read to this record. If it then loses some of its required members, it is refused for
the first of those, whatever the order of the others is. -/
theorem grammar_record_forms {members : List (Option String × Reading)} {record : GrammarRecord}
    (h : GrammarRecord.schema.decode (.object members true) = .ok record) :
    (∀ form, ReflTransGen Restated (.object members true) form → Yields form (.ok record)) ∧
    (∀ members' removed rest name,
      ReflTransGen Restated (.object members true) (.object members' true) →
      rest.Perm (Schema.without members' removed) →
      requiredMembers.find? (fun n => n ∈ removed) = some name →
      Yields (.object rest true) (.error (.mismatch (.missingField name)))) := by
  refine ⟨fun form hform => yields_of_decode (decode_of_restated hform h), ?_⟩
  intro members' removed rest name hform hrest hname
  have hmembers' := (Schema.decode_object_eq_ok_iff unordered).1 (decode_of_restated hform h)
  exact yields_of_decode (hmembers'.decode_of_missing unordered hrest hname)

open GrammarRecord in
/-- An object whose members are moved, joined by one that is unknown and left by a default; its
array; and a catalog with that object, but for two of the required members. -/
theorem grammar_record_forms_square :
    let members : List (Option String × Reading) := [(some "nb_iter", .integer 2),
      (some "axiom", .text "F"), (some "rotation_angle", .integer 90), (some "skipped", .text "")]
    let square : GrammarRecord := { start := "F", rotationAngle := 90, iterations := 2 }
    GrammarRecord.schema.decode (.object members true) = .ok square ∧
    decodeDocument GrammarRecord.schema.decode
      "\x7b\"axiom\":\"F\",\"nb_iter\":2,\"note\":[\x7b\x7d,null],\"rotation_angle\":90\x7d" =
        .ok square ∧
    decodeDocument GrammarRecord.schema.decode "[\"F\",1,\"\",90,2]" = .ok square ∧
    Catalog.ofText "\x7b\"Square\":\x7b\"skipped\":\"\",\"rotation_angle\":90\x7d\x7d" =
      .error (.badCatalog (.mismatch (.missingField "axiom"))) := by
  intro members square
  have h : GrammarRecord.schema.decode (.object members true) = .ok square := by
    with_unfolding_all rfl
  have forms := grammar_record_forms h
  let start : Option String × Reading := (some "axiom", .text "F")
  let iterations : Option String × Reading := (some "nb_iter", .integer 2)
  let angle : Option String × Reading := (some "rotation_angle", .integer 90)
  let skipped : Option String × Reading := (some "skipped", .text "")
  let note : Option String × Reading := (some "note", .array [.object [] true, .null] true)
  have hmoved : Restated (.object members true)
      (.object [start, iterations, angle, skipped] true) :=
    .permute (.swap _ _ _)
  have hjoined : Restated (.object ([start, iterations] ++ [angle, skipped]) true)
      (.object ([start, iterations] ++ note :: [angle, skipped]) true) :=
    .insert (by decide) rfl
  have hleft : Restated (.object ([start, iterations, note, angle] ++ skipped :: []) true)
      (.object ([start, iterations, note, angle] ++ []) true) :=
    .drop (.skipped rfl)
  have hnames : ["axiom", "axiom_multiplier", "rules", "rotation_angle", "nb_iter"] ++
      ["skipped", "starting_angle", "coeff"] = memberNames := rfl
  have hlisted : Restated (.object members true)
      (.array [.text "F", .integer 1, .text "", .integer 90, .integer 2] true) := by
    refine .list hnames ?_ ?_
    · have hrepeat : IsDefault "axiom_multiplier" (.integer 1) := .startRepeat rfl
      have hrules : IsDefault "rules" (.text "") := .rules rfl
      simp [Shows, members, hrepeat, hrules]
    · have hskipped : IsDefault "skipped" (.text "") := .skipped rfl
      simp [members, requiredMembers, hskipped]
  refine ⟨h, ?_, ?_, ?_⟩
  · refine (forms.1 _ (((ReflTransGen.single hmoved).tail hjoined).tail hleft)).document _ ?_
    simp only [Document.ofText, String.reduceToList]
    with_unfolding_all rfl
  · refine (forms.1 _ (.single hlisted)).document _ ?_
    simp only [Document.ofText, String.reduceToList]
    with_unfolding_all rfl
  · have hrefused := forms.2 members ["axiom", "nb_iter"] [skipped, angle] "axiom" .refl
      (.swap _ _ _) rfl
    refine hrefused.entry _ [] [] "Square" [] rfl ?_
    simp only [Document.ofText, String.reduceToList]
    with_unfolding_all rfl

end TurtleCurves
