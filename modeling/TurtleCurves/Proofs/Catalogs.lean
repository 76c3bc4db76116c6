import Mathlib.Data.Finset.Card
import TurtleCurves.Catalog.Basic
import TurtleCurves.Proofs.Documents
import TurtleCurves.Proofs.Records

/-!
# Catalogs hold the last record of each name

A catalog can be built by filing records one after the other or by reading a document that lists
them, and a document can be written of it. However it came about, it holds for each name the record
that was listed last (`Catalog.Keeps`).

Filing goes through the list from the front while the last entry of a name decides, so the lookup is
found first in the reversed list (`get?_ofList`), where the first entry of the name decides. All
else follows from lookups, since they determine a catalog. The documents add nothing to that:
reading one gives back the list that it was written from.
-/

namespace TurtleCurves

namespace Catalog

variable {entries : List (String × GrammarRecord)} {name : String} {record : GrammarRecord}

/-! ## Filing -/

/-- The record of a name is that of its first entry from the back. -/
theorem get?_ofList (entries : List (String × GrammarRecord)) (name : String) :
    (ofList entries).get? name =
      (entries.reverse.find? fun e => e.1 = name).map Prod.snd := by
  -- By induction from the back, where the last entry is the first to be found.
  induction entries using List.reverseRecOn with
  | nil => exact get?_empty name
  | append_singleton entries e ih =>
    have hlast : ofList (entries ++ [e]) = (ofList entries).insert e.1 e.2 := by
      rw [ofList, List.foldl_append]
      rfl
    rw [hlast, get?_insert, List.reverse_append, List.reverse_singleton, List.singleton_append,
      List.find?_cons]
    by_cases h : e.1 = name
    · simp [h]
    · simp [h, ih]

/-- A catalog has the record of a name from the last entry of the name. -/
theorem get?_ofList_eq_some_iff :
    (ofList entries).get? name = some record ↔
      ∃ before after, entries = before ++ (name, record) :: after ∧ name ∉ after.map Prod.fst := by
  rw [get?_ofList, Option.map_eq_some_iff]
  constructor
  · rintro ⟨⟨found, _⟩, h, rfl⟩
    obtain ⟨hname, after, before, hreverse, hafter⟩ := List.find?_eq_some_iff_append.1 h
    obtain rfl : found = name := by simpa using hname
    refine ⟨before.reverse, after.reverse, ?_, fun hmem => ?_⟩
    · rw [← List.reverse_reverse entries, hreverse, List.reverse_append, List.reverse_cons,
        List.append_assoc, List.singleton_append]
    · obtain ⟨e, he, heq⟩ := List.mem_map.1 hmem
      simpa [heq] using hafter e (List.mem_reverse.1 he)
  · rintro ⟨before, after, rfl, hafter⟩
    have hfound : (before ++ (name, record) :: after).reverse.find? (fun e => e.1 = name) =
        some (name, record) := by
      rw [List.find?_eq_some_iff_append]
      refine ⟨by simp, after.reverse, before.reverse, by simp, fun e he => ?_⟩
      have hne : e.1 ≠ name := fun heq =>
        hafter (List.mem_map.2 ⟨e, List.mem_reverse.1 he, heq⟩)
      simp [hne]
    exact ⟨_, hfound, rfl⟩

/-- A catalog has no record of a name that no entry has. -/
theorem get?_ofList_eq_none_iff :
    (ofList entries).get? name = none ↔ name ∉ entries.map Prod.fst := by
  rw [get?_ofList, Option.map_eq_none_iff, List.find?_eq_none]
  simp only [List.mem_reverse, decide_eq_true_eq, List.mem_map, not_exists, not_and]

/-- The entries of a catalog make up the catalog. -/
theorem ofList_toList (catalog : Catalog) : ofList catalog.toList = catalog := by
  refine ext_get? fun name => Option.ext fun record => ?_
  rw [get?_ofList_eq_some_iff]
  have hmem : catalog.get? name = some record ↔ (name, record) ∈ catalog.toList :=
    Std.ExtTreeMap.mem_toList_iff_getElem?_eq_some.symm
  rw [hmem]
  constructor
  · rintro ⟨before, after, h, -⟩
    rw [h]
    exact List.mem_append_right _ List.mem_cons_self
  · intro h
    obtain ⟨before, after, hsplit⟩ := List.append_of_mem h
    refine ⟨before, after, hsplit, fun hafter => ?_⟩
    -- A second entry of the name would be out of order.
    have hordered := catalog.entries.ordered_keys_toList
    rw [show catalog.entries.toList = before ++ (name, record) :: after from hsplit] at hordered
    obtain ⟨e, he, rfl⟩ := List.mem_map.1 hafter
    have hlt := List.rel_of_pairwise_cons (List.pairwise_append.1 hordered).2.1 he
    exact absurd hlt (by simp)

/-! ## Names -/

/-- The names of a catalog ascend. -/
theorem names_ascending (catalog : Catalog) :
    catalog.names.Pairwise fun a b => a.toList < b.toList :=
  catalog.entries.ordered_keys.imp fun hlt =>
    String.lt_iff.1 (compareOfLessAndEq_eq_lt.1 hlt)

/-- The names of a catalog are those of which it has a record. -/
theorem mem_names {catalog : Catalog} : name ∈ catalog.names ↔ catalog.get? name ≠ none := by
  rw [names, Std.ExtTreeMap.mem_keys, Std.ExtTreeMap.mem_iff_isSome_getElem?,
    Option.isSome_iff_ne_none]
  rfl

/-- The names of a catalog are those that were filed. -/
theorem mem_names_ofList : name ∈ (ofList entries).names ↔ name ∈ entries.map Prod.fst := by
  rw [mem_names, ne_eq, get?_ofList_eq_none_iff, not_not]

/-- No name stands twice, so the size is the number of different names. -/
theorem size_ofList (entries : List (String × GrammarRecord)) :
    (ofList entries).size = (entries.map Prod.fst).toFinset.card := by
  have hnodup : (ofList entries).names.Nodup := by
    refine (ofList entries).names_ascending.imp ?_
    rintro a _ hlt rfl
    exact List.lt_irrefl _ hlt
  have hnames : (ofList entries).names.toFinset = (entries.map Prod.fst).toFinset := by
    ext name
    rw [List.mem_toFinset, List.mem_toFinset, mem_names_ofList]
  rw [← hnames, List.toFinset_card_of_nodup hnodup]
  exact Std.ExtTreeMap.length_keys.symm

/-- What a catalog holds of a list of entries: of each name the record that comes last. -/
structure Keeps (catalog : Catalog) (entries : List (String × GrammarRecord)) : Prop where
  names_ascending : catalog.names.Pairwise fun a b => a.toList < b.toList
  mem_names : ∀ name, name ∈ catalog.names ↔ name ∈ entries.map Prod.fst
  get?_eq_some : ∀ name record, catalog.get? name = some record ↔
    ∃ before after, entries = before ++ (name, record) :: after ∧ name ∉ after.map Prod.fst
  get?_eq_none : ∀ name, catalog.get? name = none ↔ name ∉ entries.map Prod.fst
  size : catalog.size = (entries.map Prod.fst).toFinset.card

/-- Filing entries in order keeps the last of each name. -/
theorem keeps_ofList (entries : List (String × GrammarRecord)) :
    (ofList entries).Keeps entries where
  names_ascending := names_ascending _
  mem_names _ := mem_names_ofList
  get?_eq_some _ _ := get?_ofList_eq_some_iff
  get?_eq_none _ := get?_ofList_eq_none_iff
  size := size_ofList entries

/-! ## Documents -/

/-- The document that lists entries in their order. -/
def listing (entries : List (String × GrammarRecord)) : Json :=
  .object (entries.map fun e => (e.1, GrammarRecord.schema.encode e.2))

/-- A value that lists entries with finite numbers is decoded to the catalog of these entries. -/
theorem decode_listing (hfinite : ∀ e ∈ entries, e.2.motion.IsFinite) :
    decode (listing entries).reading = .ok (ofList entries) := by
  have hentries : Json.decodeMap GrammarRecord.schema.decode (listing entries).reading =
      .ok entries :=
    Json.rereads_members fun e he => GrammarRecord.rereads (hfinite e he)
  rw [decode, hentries]
  rfl

/-- What a catalog is written as is decoded to that catalog, if the numbers that were filed are
finite. Records that were replaced are not written, but it does no harm to ask it of them too. -/
theorem decode_toJson (hfinite : ∀ e ∈ entries, e.2.motion.IsFinite) :
    decode (ofList entries).toJson.reading = .ok (ofList entries) := by
  have hfinite' : ∀ e ∈ (ofList entries).toList, e.2.motion.IsFinite := by
    intro e he
    obtain ⟨before, after, hsplit, -⟩ :=
      get?_ofList_eq_some_iff.1 (Std.ExtTreeMap.mem_toList_iff_getElem?_eq_some.1 he)
    exact hfinite e (hsplit ▸ List.mem_append_right _ List.mem_cons_self)
  rw [show (ofList entries).toJson = listing (ofList entries).toList from rfl,
    decode_listing hfinite', ofList_toList]

/-- A text is read as the value whose tokens it has. -/
theorem ofText_of_written {value : Json} {catalog : Catalog}
    (h : decode value.reading = .ok catalog) {text : String}
    (htext : Json.tokens text.toList = value.written) :
    ofText text = .ok catalog := by
  rw [ofText, Json.decodeDocument_of_written htext, h]
  rfl

end Catalog

/-- A catalog into which entries were filed in order holds of each name the last record, and its
names ascend. The value that lists the entries is decoded to the same catalog, and so is the value
that the catalog is written as; and both are so from every text that has their tokens. The numbers
must be finite, for others cannot be written. -/
theorem catalog_of_entries (entries : List (String × GrammarRecord)) :
    (Catalog.ofList entries).Keeps entries ∧
    (∀ name,
      (∀ record, (Catalog.ofList entries).get? name = some record →
        (Catalog.ofList entries).validate name = record.validate.mapError .invalidGrammar) ∧
      ((Catalog.ofList entries).get? name = none →
        (Catalog.ofList entries).validate name = Logged.fail (.unknownGrammar name))) ∧
    ((∀ e ∈ entries, e.2.motion.IsFinite) →
      Catalog.decode (Catalog.listing entries).reading = .ok (Catalog.ofList entries) ∧
      Catalog.decode (Catalog.ofList entries).toJson.reading = .ok (Catalog.ofList entries) ∧
      ∀ text : String,
        Json.tokens text.toList = (Catalog.listing entries).written ∨
          Json.tokens text.toList = (Catalog.ofList entries).toJson.written →
        Catalog.ofText text = .ok (Catalog.ofList entries)) := by
  refine ⟨Catalog.keeps_ofList entries, fun name => ⟨fun record h => ?_, fun h => ?_⟩,
    fun hfinite => ⟨Catalog.decode_listing hfinite, Catalog.decode_toJson hfinite, ?_⟩⟩
  · rw [Catalog.validate, h]
  · rw [Catalog.validate, h]
  · rintro text (hlisting | hjson)
    · exact Catalog.ofText_of_written (Catalog.decode_listing hfinite) hlisting
    · exact Catalog.ofText_of_written (Catalog.decode_toJson hfinite) hjson

set_option maxRecDepth 4000 in
/-- A document with one member: of a list with that entry alone, and of a catalog in which the entry
has taken the place of another. -/
theorem catalog_of_entries_refiled :
    let old : GrammarRecord := { start := "X", rotationAngle := 90, iterations := 1 }
    let new : GrammarRecord := { start := "F", rotationAngle := 22.5, iterations := 2 }
    let catalog := Catalog.ofList [("b", old), ("b", new)]
    Catalog.decode (Catalog.listing [("b", old), ("b", new)]).reading = .ok catalog ∧
      Catalog.decode catalog.toJson.reading = .ok catalog ∧
      (∃ text,
        Catalog.ofText text = .ok (Catalog.ofList [("b", new)]) ∧
        Catalog.ofText text = .ok catalog) ∧
      catalog.get? "b" = some new := by
  obtain ⟨text, htext⟩ : ∃ text : String, Json.tokens text.toList =
      (Catalog.listing
        [("b", { start := "F", rotationAngle := 22.5, iterations := 2 })]).written := by
    refine ⟨"\x7b\"b\":\x7b\"axiom\":\"F\",\"axiom_multiplier\":1,\"rules\":\"\"," ++
      "\"rotation_angle\":22.5,\"nb_iter\":2,\"skipped\":\"\",\"starting_angle\":0.0," ++
      "\"coeff\":1.0\x7d\x7d", ?_⟩
    simp only [String.reduceAppend, String.reduceToList]
    with_unfolding_all rfl
  intro old new catalog
  have hold : old.motion.IsFinite := ⟨by decide +kernel, by decide +kernel, by decide +kernel⟩
  have hnew : new.motion.IsFinite := ⟨by decide +kernel, by decide +kernel, by decide +kernel⟩
  obtain ⟨hkeeps, -, hdocuments⟩ := catalog_of_entries [("b", old), ("b", new)]
  obtain ⟨hlisting, hjson, htexts⟩ := hdocuments (by simp [hold, hnew])
  refine ⟨hlisting, hjson, ⟨text, ?_, ?_⟩, ?_⟩
  · exact ((catalog_of_entries _).2.2 (by simp [hnew])).2.2 text (Or.inl htext)
  · have hentries : catalog.toList = [("b", new)] := by decide +kernel
    refine htexts text (Or.inr ?_)
    rw [htext, Catalog.toJson, hentries]
    rfl
  · exact (hkeeps.get?_eq_some _ _).2 ⟨[("b", old)], [], rfl, by simp⟩

end TurtleCurves
