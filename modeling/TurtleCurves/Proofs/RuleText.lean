import Mathlib.Data.List.TakeWhile
import TurtleCurves.Proofs.RuleMerging

/-!
# Rule texts

A rule text is cut into clauses (`DividesInto`), and `ReadsAs` and `Malformed` say of one clause
what it means or what is wrong with it, without reading it: both speak of the word before the first
colon and the word behind it. Every clause is one or the other, and `parseClause` finds out which.

Reading a text goes twice through its clauses, first to read each of them and then to add its rule
to the table. So the first malformed clause decides the answer wherever it stands, and only a text
without malformed clauses is searched for the first contradiction.
-/

namespace TurtleCurves

/-! ## One clause -/

/-- Before the first colon of the clause stands one symbol between blanks, the head, and what stands
behind the colon is, without its blanks, the body. -/
def ReadsAs (clause : Word) (head : Symbol) (body : Word) : Prop :=
  ∃ before after, clause = before ++ ':' :: after ∧ ':' ∉ before ∧
    Text.trim before = [head] ∧ body = Text.strip after

/-- The clause has a head and a body. -/
def Readable (clause : Word) : Prop :=
  ∃ head body, ReadsAs clause head body

/-- No head is given two bodies by the clauses. -/
def Consistent (clauses : List Word) : Prop :=
  ∀ clause ∈ clauses, ∀ clause' ∈ clauses, ∀ head first second,
    ReadsAs clause head first → ReadsAs clause' head second → first = second

/-- What is wrong with a clause. -/
inductive Malformed : Word → GrammarFault → Prop
  | missingColon {clause : Word} (hcolon : ':' ∉ clause) : Malformed clause (.missingColon clause)
  | emptyHead {before after : Word} (hcolon : ':' ∉ before) (hhead : Text.trim before = []) :
      Malformed (before ++ ':' :: after) (.emptyHead (before ++ ':' :: after))
  | longHead {before after : Word} (hcolon : ':' ∉ before)
      (hhead : 2 ≤ (Text.trim before).length) :
      Malformed (before ++ ':' :: after) (.longHead (Text.trim before))

/-- A clause without a colon is refused. -/
theorem parseClause_of_not_mem {clause : Word} (h : ':' ∉ clause) :
    parseClause clause = .error (.missingColon clause) := by
  have hdrop : clause.dropWhile (· != ':') = [] := by
    rw [List.dropWhile_eq_nil_iff]
    intro c hc
    exact bne_iff_ne.2 fun heq => h (heq ▸ hc)
  rw [parseClause, hdrop]

/-- The first colon divides a clause. -/
theorem parseClause_append {before : Word} (h : ':' ∉ before) (after : Word) :
    parseClause (before ++ ':' :: after) =
      match Text.trim before with
      | [] => .error (.emptyHead (before ++ ':' :: after))
      | [head] => .ok (head, Text.strip after)
      | head => .error (.longHead head) := by
  have hbefore : ∀ c ∈ before, (c != ':') = true := fun c hc =>
    bne_iff_ne.2 fun heq => h (heq ▸ hc)
  have hdrop : (before ++ ':' :: after).dropWhile (· != ':') = ':' :: after := by
    rw [List.dropWhile_append_of_pos hbefore, List.dropWhile_cons_of_neg (by simp)]
  have htake : (before ++ ':' :: after).takeWhile (· != ':') = before := by
    rw [List.takeWhile_append_of_pos hbefore, List.takeWhile_cons_of_neg (by simp),
      List.append_nil]
  rewrite [parseClause, hdrop, htake]
  rfl

/-- A clause with a meaning is read as what it means. -/
theorem parseClause_eq_ok_of_readsAs {clause : Word} {head : Symbol} {body : Word}
    (h : ReadsAs clause head body) : parseClause clause = .ok (head, body) := by
  obtain ⟨before, after, rfl, hbefore, hhead, rfl⟩ := h
  rw [parseClause_append hbefore, hhead]

/-- A malformed clause is refused for what is wrong with it. -/
theorem parseClause_eq_error_of_malformed {clause : Word} {fault : GrammarFault}
    (h : Malformed clause fault) : parseClause clause = .error fault := by
  cases h with
  | missingColon hcolon => exact parseClause_of_not_mem hcolon
  | emptyHead hcolon hhead => rw [parseClause_append hcolon, hhead]
  | @longHead before after hcolon hhead =>
    rw [parseClause_append hcolon]
    cases htrim : Text.trim before with
    | nil => simp [htrim] at hhead
    | cons first rest =>
      cases rest with
      | nil => simp [htrim] at hhead
      | cons second rest => rfl

/-- Every clause has a meaning or something wrong with it. -/
theorem readable_or_malformed (clause : Word) :
    Readable clause ∨ ∃ fault, Malformed clause fault := by
  -- Everything is decided by the first colon and what stands before it.
  by_cases hcolon : ':' ∈ clause
  · obtain ⟨before, after, rfl, hbefore⟩ := List.eq_append_cons_of_mem hcolon
    cases hhead : Text.trim before with
    | nil => exact Or.inr ⟨_, .emptyHead hbefore hhead⟩
    | cons head rest =>
      cases rest with
      | nil => exact Or.inl ⟨head, _, before, after, rfl, hbefore, hhead, rfl⟩
      | cons second rest =>
        refine Or.inr ⟨_, .longHead hbefore ?_⟩
        rw [hhead]
        exact Nat.le_add_left 2 rest.length
  · exact Or.inr ⟨_, .missingColon hcolon⟩

/-- What a clause is read as is what it means. -/
theorem parseClause_eq_ok_iff {clause : Word} {head : Symbol} {body : Word} :
    parseClause clause = .ok (head, body) ↔ ReadsAs clause head body := by
  refine ⟨fun h => ?_, parseClause_eq_ok_of_readsAs⟩
  rcases readable_or_malformed clause with ⟨head', body', hreads⟩ | ⟨fault, hmalformed⟩
  · rw [parseClause_eq_ok_of_readsAs hreads] at h
    cases h
    exact hreads
  · rw [parseClause_eq_error_of_malformed hmalformed] at h
    cases h

/-- What a clause is refused for is what is wrong with it. -/
theorem parseClause_eq_error_iff {clause : Word} {fault : GrammarFault} :
    parseClause clause = .error fault ↔ Malformed clause fault := by
  refine ⟨fun h => ?_, parseClause_eq_error_of_malformed⟩
  rcases readable_or_malformed clause with ⟨head, body, hreads⟩ | ⟨fault', hmalformed⟩
  · rw [parseClause_eq_ok_of_readsAs hreads] at h
    cases h
  · rw [parseClause_eq_error_of_malformed hmalformed] at h
    cases h
    exact hmalformed

/-- The clauses that can be read are those with a meaning. -/
theorem exists_parseClause_iff {clause : Word} :
    (∃ rule, parseClause clause = .ok rule) ↔ Readable clause := by
  constructor
  · rintro ⟨⟨head, body⟩, h⟩
    exact ⟨head, body, parseClause_eq_ok_iff.1 h⟩
  · rintro ⟨head, body, h⟩
    exact ⟨(head, body), parseClause_eq_ok_iff.2 h⟩

/-- No clause has a meaning and something wrong with it. -/
theorem Malformed.not_readable {clause : Word} {fault : GrammarFault} (h : Malformed clause fault) :
    ¬ Readable clause := by
  rintro ⟨head, body, hreads⟩
  have hok := parseClause_eq_ok_of_readsAs hreads
  rw [parseClause_eq_error_of_malformed h] at hok
  cases hok

/-! ## Cutting a text -/

/-- No piece of a text holds the symbol at which it was cut. -/
theorem not_mem_of_mem_splitOn {x : Char} {s piece : List Char} (h : piece ∈ s.splitOn x) :
    x ∉ piece := by
  induction s generalizing piece with
  | nil =>
    rw [List.splitOn_nil, List.mem_singleton] at h
    rw [h]
    exact List.not_mem_nil
  | cons c s ih =>
    rw [List.splitOn_cons_eq_if_modifyHead] at h
    split at h
    · rcases List.mem_cons.1 h with rfl | hrest
      · exact List.not_mem_nil
      · exact ih hrest
    · next hc =>
      -- The first piece of the rest grows by `c`.
      obtain ⟨first, rest, hsplit⟩ := List.exists_cons_of_ne_nil (List.splitOn_ne_nil x s)
      rw [hsplit, List.modifyHead_cons] at h
      rw [hsplit] at ih
      rcases List.mem_cons.1 h with rfl | hrest
      · rw [List.mem_cons, not_or]
        exact ⟨fun heq => hc (beq_iff_eq.2 heq.symm), ih List.mem_cons_self⟩
      · exact ih (List.mem_cons_of_mem first hrest)

/-- The clauses of a text: it consists of pieces without a semicolon and of one semicolon between
any two of them, and of each piece counts what is left without the blanks at its ends, if that is
not nothing. -/
def DividesInto (text : List Char) (clauses : List Word) : Prop :=
  ∃ pieces trimmed : List Word, text = [';'].intercalate pieces ∧
    (∀ piece ∈ pieces, ';' ∉ piece) ∧ List.Forall₂ Text.TrimsTo pieces trimmed ∧
    clauses = trimmed.filter fun clause => clause ≠ []

/-- A text has just one list of clauses, and `ruleClauses` finds it. -/
theorem dividesInto_iff {text : List Char} {clauses : List Word} :
    DividesInto text clauses ↔ ruleClauses text = clauses := by
  have htrimmed : ∀ pieces trimmed : List Word,
      List.Forall₂ Text.TrimsTo pieces trimmed ↔ pieces.map Text.trim = trimmed := by
    intro pieces trimmed
    rw [← List.forall₂_eq_eq_eq, List.forall₂_map_left_iff]
    exact ⟨List.Forall₂.imp fun _ _ => Text.trimsTo_iff.1,
      List.Forall₂.imp fun _ _ => Text.trimsTo_iff.2⟩
  have hkept : ∀ trimmed : List Word,
      (trimmed.filter fun clause => clause ≠ []) = trimmed.filter fun clause => !clause.isEmpty :=
    fun trimmed => List.filter_congr fun clause _ => by cases clause <;> rfl
  rw [ruleClauses]
  constructor
  · rintro ⟨pieces, trimmed, rfl, hpieces, htrim, rfl⟩
    rw [htrimmed] at htrim
    rw [hkept, ← htrim]
    -- A text of no pieces is empty and is cut into one piece, which is blank and does not count.
    cases pieces with
    | nil => rfl
    | cons piece pieces =>
      rw [List.splitOn_intercalate ';' hpieces (List.cons_ne_nil piece pieces)]
  · rintro rfl
    refine ⟨text.splitOn ';', (text.splitOn ';').map Text.trim,
      (List.intercalate_splitOn ';').symm, fun piece => not_mem_of_mem_splitOn,
      (htrimmed _ _).2 rfl, (hkept _).symm⟩

/-! ## All clauses -/

/-- Going through a list with something that can fail ends with all results or at the first
failure. -/
theorem mapM_except_cases {α β ε : Type} (f : α → Except ε β) (l : List α) :
    (∃ bs, l.mapM f = .ok bs ∧ l.map f = bs.map .ok) ∨
      ∃ before a after e, l = before ++ a :: after ∧ (∀ x ∈ before, ∃ b, f x = .ok b) ∧
        f a = .error e ∧ l.mapM f = .error e := by
  induction l with
  | nil => exact Or.inl ⟨[], rfl, rfl⟩
  | cons a l ih =>
    rw [List.mapM_cons]
    cases ha : f a with
    | error e => exact Or.inr ⟨[], a, l, e, rfl, by simp, ha, rfl⟩
    | ok b =>
      rcases ih with ⟨bs, hbs, hmap⟩ | ⟨before, a', after, e, rfl, hbefore, ha', herror⟩
      · rw [hbs]
        exact Or.inl ⟨b :: bs, rfl, by rw [List.map_cons, List.map_cons, ha, hmap]⟩
      · rw [herror]
        refine Or.inr ⟨a :: before, a', after, e, rfl, ?_, ha', rfl⟩
        rw [List.forall_mem_cons]
        exact ⟨⟨b, ha⟩, hbefore⟩

/-- If every entry has a result, going through the list ends with these results. -/
theorem mapM_eq_ok_of_map {α β ε : Type} {f : α → Except ε β} {l : List α} {bs : List β}
    (h : l.map f = bs.map .ok) : l.mapM f = .ok bs := by
  rcases mapM_except_cases f l with ⟨bs', hbs, hmap⟩ | ⟨before, a, after, e, rfl, -, ha, -⟩
  · rw [h] at hmap
    rw [hbs, List.map_injective_iff.2 (fun _ _ hab => Except.ok.inj hab) hmap]
  · have hmem : f a ∈ bs.map .ok := by
      rw [← h]
      simp
    obtain ⟨b, -, hb⟩ := List.mem_map.1 hmem
    rw [ha] at hb
    cases hb

/-- The rules that were read are what the clauses mean. -/
theorem mem_of_map_parseClause {clauses : List Word} {rules : List (Symbol × Word)}
    (h : clauses.map parseClause = rules.map .ok) {head : Symbol} {body : Word} :
    (head, body) ∈ rules ↔ ∃ clause ∈ clauses, ReadsAs clause head body := by
  have hmem : (.ok (head, body) : Except GrammarFault (Symbol × Word)) ∈ clauses.map parseClause ↔
      (head, body) ∈ rules := by
    rw [h, List.mem_map_of_injective fun a b hab => Except.ok.inj hab]
  rw [← hmem, List.mem_map]
  exact exists_congr fun clause => and_congr_right fun _ => parseClause_eq_ok_iff

/-- Where all clauses were read, each of them has a meaning. -/
theorem readable_of_map_parseClause {clauses : List Word} {rules : List (Symbol × Word)}
    (h : clauses.map parseClause = rules.map .ok) : ∀ clause ∈ clauses, Readable clause := by
  intro clause hclause
  have hmem : parseClause clause ∈ rules.map .ok := by
    rw [← h]
    exact List.mem_map_of_mem hclause
  obtain ⟨rule, -, hrule⟩ := List.mem_map.1 hmem
  exact exists_parseClause_iff.1 ⟨rule, hrule.symm⟩

/-- Clauses contradict one another exactly if the rules do that were read from them. -/
theorem consistent_iff_agreeing {clauses : List Word} {rules : List (Symbol × Word)}
    (h : clauses.map parseClause = rules.map .ok) :
    Consistent clauses ↔ RuleSet.Agreeing rules := by
  constructor
  · intro hconsistent head first second hfirst hsecond
    obtain ⟨clause, hclause, hreads⟩ := (mem_of_map_parseClause h).1 hfirst
    obtain ⟨clause', hclause', hreads'⟩ := (mem_of_map_parseClause h).1 hsecond
    exact hconsistent clause hclause clause' hclause' head first second hreads hreads'
  · intro hagreeing clause hclause clause' hclause' head first second hreads hreads'
    exact hagreeing head first second ((mem_of_map_parseClause h).2 ⟨clause, hclause, hreads⟩)
      ((mem_of_map_parseClause h).2 ⟨clause', hclause', hreads'⟩)

/-! ## Texts -/

namespace RuleSet

/-- Where all clauses are read, the outcome is that of adding their rules. -/
theorem parse_of_mapM_eq_ok {text : List Char} {rules : List (Symbol × Word)}
    (h : (ruleClauses text).mapM parseClause = .ok rules) :
    (parse text).outcome = (ofPairs rules).outcome := by
  rw [parse, Logged.outcome_bind, Logged.ofExcept_outcome, h]
  rfl

/-- Where a clause cannot be read, no rule is added and nothing is reported. -/
theorem parse_of_mapM_eq_error {text : List Char} {fault : GrammarFault}
    (h : (ruleClauses text).mapM parseClause = .error fault) :
    parse text = ⟨.error fault, []⟩ := by
  rw [parse, h]
  rfl

/-- A text is read, or refused for its first malformed clause, or for its first contradiction. -/
theorem parse_cases (text : List Char) :
    (∃ table, (parse text).outcome = .ok table ∧
      (∀ clause ∈ ruleClauses text, Readable clause) ∧ Consistent (ruleClauses text) ∧
      ∀ head body, table.body? head = some body ↔
        ∃ clause ∈ ruleClauses text, ReadsAs clause head body) ∨
    (∃ before clause after fault, ruleClauses text = before ++ clause :: after ∧
      (∀ c ∈ before, Readable c) ∧ Malformed clause fault ∧ parse text = ⟨.error fault, []⟩) ∨
    ∃ before clause after head first second, ruleClauses text = before ++ clause :: after ∧
      (∀ c ∈ ruleClauses text, Readable c) ∧ Consistent before ∧
      (∃ c ∈ before, ReadsAs c head first) ∧ ReadsAs clause head second ∧ first ≠ second ∧
      (parse text).outcome = .error (.conflictingBodies head first second) := by
  -- All clauses are read before any rule is added, so this comes first.
  rcases mapM_except_cases parseClause (ruleClauses text) with
    ⟨rules, hrules, hmap⟩ | ⟨before, clause, after, fault, heq, hbefore, hclause, herror⟩
  · have hreadable := readable_of_map_parseClause hmap
    rcases ofPairs_cases rules with ⟨table, hok, hholds, -⟩ |
      ⟨before, head, second, after, first, rfl, hagree, hfirst, hne, herror⟩
    · refine Or.inl ⟨table, by rw [parse_of_mapM_eq_ok hrules, hok], hreadable,
        (consistent_iff_agreeing hmap).2 hholds.agreeing, fun head body => ?_⟩
      rw [hholds head body, mem_of_map_parseClause hmap]
    · -- The clauses split where the rules that were read from them do.
      rw [List.map_append, List.map_cons] at hmap
      obtain ⟨before', rest, hclauses, hbefore, hrest⟩ := List.map_eq_append_iff.1 hmap
      obtain ⟨clause, after', rfl, hclause, -⟩ := List.map_eq_cons_iff.1 hrest
      exact Or.inr (Or.inr ⟨before', clause, after', head, first, second, hclauses, hreadable,
        (consistent_iff_agreeing hbefore).2 hagree, (mem_of_map_parseClause hbefore).1 hfirst,
        parseClause_eq_ok_iff.1 hclause, hne, by rw [parse_of_mapM_eq_ok hrules, herror]⟩)
  · exact Or.inr (Or.inl ⟨before, clause, after, fault, heq,
      fun c hc => exists_parseClause_iff.1 (hbefore c hc), parseClause_eq_error_iff.1 hclause,
      parse_of_mapM_eq_error herror⟩)

/-- A text can be read exactly if its clauses have a meaning and do not contradict one another. -/
theorem exists_parse_iff {text : List Char} :
    (∃ table, (parse text).outcome = .ok table) ↔
      (∀ clause ∈ ruleClauses text, Readable clause) ∧ Consistent (ruleClauses text) := by
  rcases parse_cases text with ⟨table, hok, hreadable, hconsistent, -⟩ |
    ⟨before, clause, after, fault, heq, -, hmalformed, hparse⟩ |
    ⟨before, clause, after, head, first, second, heq, -, -, ⟨c, hc, hfirst⟩, hsecond, hne, herror⟩
  · exact iff_of_true ⟨table, hok⟩ ⟨hreadable, hconsistent⟩
  · refine iff_of_false ?_ fun h => hmalformed.not_readable (h.1 clause (by simp [heq]))
    rintro ⟨table, hok⟩
    rw [hparse] at hok
    cases hok
  · refine iff_of_false ?_ fun h =>
      hne (h.2 c (by simp [heq, hc]) clause (by simp [heq]) head first second hfirst hsecond)
    rintro ⟨table, hok⟩
    rw [herror] at hok
    cases hok

/-- The bodies of a table that was read are those of the clauses. -/
theorem body?_of_parse {text : List Char} {table : RuleSet} (h : (parse text).outcome = .ok table)
    (head : Symbol) (body : Word) :
    table.body? head = some body ↔ ∃ clause ∈ ruleClauses text, ReadsAs clause head body := by
  rcases parse_cases text with ⟨table', hok, -, -, hbodies⟩ | ⟨_, _, _, _, -, -, -, hparse⟩ |
    ⟨_, _, _, _, _, _, -, -, -, -, -, -, herror⟩
  · rw [hok] at h
    cases h
    exact hbodies head body
  · rw [hparse] at h
    cases h
  · rw [herror] at h
    cases h

/-- The size of a table that was read is the number of different heads. -/
theorem size_of_parse {text : List Char} {table : RuleSet} (h : (parse text).outcome = .ok table) :
    table.size = {head | ∃ clause ∈ ruleClauses text, ∃ body, ReadsAs clause head body}.ncard := by
  rw [size_eq_ncard]
  congr 1
  ext head
  simp only [Set.mem_ofPred_eq, body?_of_parse h]
  constructor
  · rintro ⟨body, clause, hclause, hreads⟩
    exact ⟨clause, hclause, body, hreads⟩
  · rintro ⟨clause, hclause, body, hreads⟩
    exact ⟨body, clause, hclause, hreads⟩

end RuleSet

/-- The clauses of a text are what stands between its semicolons, trimmed and not blank. The text
can be read exactly if each of them has one symbol before its first colon and no head is given two
bodies. The table then has the bodies of the clauses and no others. A text that cannot be read is
refused for its first malformed clause, before anything is reported; and only if it has none, for
the first clause whose head has another body in an earlier clause. -/
theorem parse_clauses (text : List Char) :
    (∀ clauses, DividesInto text clauses ↔ ruleClauses text = clauses) ∧
    ((∃ table, (RuleSet.parse text).outcome = .ok table) ↔
      (∀ clause ∈ ruleClauses text, Readable clause) ∧ Consistent (ruleClauses text)) ∧
    (∀ table, (RuleSet.parse text).outcome = .ok table →
      (∀ head body, table.body? head = some body ↔
        ∃ clause ∈ ruleClauses text, ReadsAs clause head body) ∧
      table.size = {head | ∃ clause ∈ ruleClauses text, ∃ body, ReadsAs clause head body}.ncard) ∧
    ∀ fault, (RuleSet.parse text).outcome = .error fault →
      (∃ before clause after, ruleClauses text = before ++ clause :: after ∧
        (∀ c ∈ before, Readable c) ∧ Malformed clause fault ∧
        (RuleSet.parse text).records = []) ∨
      ∃ before clause after head first second, ruleClauses text = before ++ clause :: after ∧
        (∀ c ∈ ruleClauses text, Readable c) ∧ Consistent before ∧
        (∃ c ∈ before, ReadsAs c head first) ∧ ReadsAs clause head second ∧ first ≠ second ∧
        fault = .conflictingBodies head first second := by
  refine ⟨fun _ => dividesInto_iff, RuleSet.exists_parse_iff,
    fun table h => ⟨RuleSet.body?_of_parse h, RuleSet.size_of_parse h⟩, fun fault h => ?_⟩
  rcases RuleSet.parse_cases text with ⟨_, hok, -⟩ |
    ⟨before, clause, after, fault', heq, hbefore, hmalformed, hparse⟩ |
    ⟨before, clause, after, head, first, second, heq, hreadable, hconsistent, hfirst, hsecond, hne,
      herror⟩
  · rw [hok] at h
    cases h
  · rw [hparse] at h
    cases h
    exact Or.inl ⟨before, clause, after, heq, hbefore, hmalformed, by rw [hparse]⟩
  · rw [herror] at h
    cases h
    exact Or.inr ⟨before, clause, after, head, first, second, heq, hreadable, hconsistent, hfirst,
      hsecond, hne, rfl⟩

/-- The first malformed clause wins over a contradiction before it and a malformed one behind it. -/
example : (RuleSet.parse "F : FF ; F : F+F ; AB : C ; : G".toList).outcome =
    .error (.longHead "AB".toList) := by
  decide +kernel

end TurtleCurves
