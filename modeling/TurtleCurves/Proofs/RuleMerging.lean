import Mathlib.Data.Set.Card
import TurtleCurves.Grammar.RuleSet

/-!
# Adding rules to a table

A list of rules fits into one table exactly if no head has two bodies in it (`Agreeing`). The
invariant of the addition is `Holds`: the table has exactly the rules that were added to it. A rule
either keeps the invariant or contradicts a rule that was added before it (`addRule_cases`), so
adding a list ends with a table that holds the list or at the first contradiction.

A rule that keeps the invariant either is one of those that the table holds, and is reported, or
makes the table larger. So the reports are the repeated rules of the list (`reports`), and together
with the size of the table they make up the length of the list.
-/

namespace TurtleCurves

namespace RuleSet

/-- The rules of the table are the listed ones. -/
def Holds (table : RuleSet) (rules : List (Symbol × Word)) : Prop :=
  ∀ head body, table.body? head = some body ↔ (head, body) ∈ rules

/-- No head has two bodies. -/
def Agreeing (rules : List (Symbol × Word)) : Prop :=
  ∀ head first second, (head, first) ∈ rules → (head, second) ∈ rules → first = second

/-- The empty table holds no rules. -/
theorem holds_empty : empty.Holds [] := by
  intro head body
  simp

/-- A table holds the rules that it lists. -/
theorem holds_toList (table : RuleSet) : table.Holds table.toList :=
  fun _ _ => mem_toList.symm

/-- Rules that a table holds agree, since a head has one body there. -/
theorem Holds.agreeing {table : RuleSet} {rules : List (Symbol × Word)} (h : table.Holds rules) :
    Agreeing rules := by
  intro head first second hfirst hsecond
  have hbody := (h head first).2 hfirst
  rw [(h head second).2 hsecond] at hbody
  exact (Option.some.inj hbody).symm

/-- A table is determined by the rules that it holds. -/
theorem Holds.unique {s t : RuleSet} {rules : List (Symbol × Word)} (hs : s.Holds rules)
    (ht : t.Holds rules) : s = t := by
  refine ext_body? fun head => Option.ext fun body => ?_
  rw [hs head body, ht head body]

/-- A table does not know in which order rules were listed. -/
theorem Holds.of_perm {table : RuleSet} {rules rules' : List (Symbol × Word)}
    (h : table.Holds rules) (hperm : rules'.Perm rules) : table.Holds rules' := by
  intro head body
  rw [h head body, hperm.mem_iff]

/-- The size of a table is the number of heads that have a body. -/
theorem size_eq_ncard (table : RuleSet) :
    table.size = {head | ∃ body, table.body? head = some body}.ncard := by
  -- The keys of the table are the heads with a body, each of them once.
  have hheads : {head | ∃ body, table.body? head = some body} =
      (table.bodies.keys.toFinset : Set Symbol) := by
    ext head
    rw [Set.mem_ofPred_eq, Finset.mem_coe, List.mem_toFinset, Std.ExtTreeMap.mem_keys,
      Std.ExtTreeMap.mem_iff_isSome_getElem?, Option.isSome_iff_exists]
    rfl
  rw [hheads, Set.ncard_coe_finset, List.toFinset_card_of_nodup Std.ExtTreeMap.nodup_keys,
    Std.ExtTreeMap.length_keys, size]

/-! ## One rule -/

/-- A head without a body is given one, and nothing is reported. -/
theorem addRule_of_none {table : RuleSet} {head : Symbol} (body : Word)
    (h : table.body? head = none) : table.addRule (head, body) = pure (table.insert head body) := by
  simp [addRule, h]

/-- A rule that is there already changes nothing and is reported. -/
theorem addRule_of_eq {table : RuleSet} {head : Symbol} {body : Word}
    (h : table.body? head = some body) :
    table.addRule (head, body) = ⟨.ok table, [.repeatedRule head]⟩ := by
  simp only [addRule, h, if_pos]
  rfl

/-- A second body for a head is refused. -/
theorem addRule_of_ne {table : RuleSet} {head : Symbol} {first body : Word}
    (h : table.body? head = some first) (hne : first ≠ body) :
    table.addRule (head, body) = Logged.fail (.conflictingBodies head first body) := by
  simp [addRule, h, hne]

/-- A body for a head without one makes the table larger by one. -/
theorem size_insert_of_none {table : RuleSet} {head : Symbol} (body : Word)
    (h : table.body? head = none) : (table.insert head body).size = table.size + 1 := by
  have hcontains : table.bodies.contains head = false := by
    rw [Std.ExtTreeMap.contains_eq_isSome_getElem?]
    change (table.body? head).isSome = false
    rw [h, Option.isSome_none]
  rw [insert, size, size, Std.ExtTreeMap.size_insert, hcontains, if_neg Bool.false_ne_true]

/-- The rules that repeat one of the earlier rules or one further in front in the list. -/
def repeats : List (Symbol × Word) → List (Symbol × Word) → List (Symbol × Word)
  | _, [] => []
  | earlier, rule :: rules =>
      (if rule ∈ earlier then [rule] else []) ++ repeats (earlier ++ [rule]) rules

/-- What is reported of rules that are added to the earlier ones: one record for each repeated rule.
-/
def reports (earlier rules : List (Symbol × Word)) : List LogRecord :=
  (repeats earlier rules).map fun rule => .repeatedRule rule.1

@[simp] theorem reports_nil (earlier : List (Symbol × Word)) : reports earlier [] = [] := rfl

/-- Each rule is compared with all that stand before it. -/
theorem reports_cons (earlier : List (Symbol × Word)) (rule : Symbol × Word)
    (rules : List (Symbol × Word)) :
    reports earlier (rule :: rules) =
      reports earlier [rule] ++ reports (earlier ++ [rule]) rules := by
  simp only [reports, repeats, List.append_nil, List.map_append]

/-- A rule that was there before is reported. -/
theorem reports_singleton_of_mem {earlier : List (Symbol × Word)} {rule : Symbol × Word}
    (h : rule ∈ earlier) : reports earlier [rule] = [.repeatedRule rule.1] := by
  simp [reports, repeats, h]

theorem reports_singleton_of_not_mem {earlier : List (Symbol × Word)} {rule : Symbol × Word}
    (h : rule ∉ earlier) : reports earlier [rule] = [] := by
  simp [reports, repeats, h]

/-- A rule joins the rules that a table holds, unless one of them gives its head another body. It is
reported if it is one of them, and else it makes the table larger by one. -/
theorem addRule_cases {table : RuleSet} {rules : List (Symbol × Word)} (h : table.Holds rules)
    (head : Symbol) (body : Word) :
    (∃ next, table.addRule (head, body) = ⟨.ok next, reports rules [(head, body)]⟩ ∧
        next.Holds (rules ++ [(head, body)]) ∧
        (reports rules [(head, body)]).length + next.size = table.size + 1) ∨
      ∃ first, (head, first) ∈ rules ∧ first ≠ body ∧
        table.addRule (head, body) = ⟨.error (.conflictingBodies head first body), []⟩ := by
  cases hhead : table.body? head with
  | none =>
    have hnew : reports rules [(head, body)] = [] := by
      refine reports_singleton_of_not_mem fun hmem => ?_
      rw [← h head body, hhead] at hmem
      cases hmem
    refine Or.inl ⟨table.insert head body, ?_, fun head' body' => ?_, ?_⟩
    · rw [addRule_of_none body hhead, hnew]
      rfl
    · rw [body?_insert, List.mem_append, List.mem_singleton, Prod.mk.injEq, ← h head' body']
      by_cases heq : head = head'
      · subst heq
        simp [hhead, eq_comm]
      · simp [heq, Ne.symm heq]
    · rw [hnew, size_insert_of_none body hhead, List.length_nil, Nat.zero_add]
  | some first =>
    have hold : (head, first) ∈ rules := (h head first).1 hhead
    by_cases heq : first = body
    · -- The table stays as it is, and the list grows by a rule that is already in it.
      subst heq
      rw [reports_singleton_of_mem hold]
      refine Or.inl ⟨table, addRule_of_eq hhead, fun head' body' => ?_, Nat.add_comm _ _⟩
      rw [h head' body', List.mem_append, List.mem_singleton]
      constructor
      · exact Or.inl
      · rintro (hmem | hnew)
        · exact hmem
        · rw [hnew]
          exact hold
    · exact Or.inr ⟨first, hold, heq, addRule_of_ne hhead heq⟩

/-! ## Lists of rules -/

/-- Adding a list of rules ends with a table that holds them or at the first rule that gives a head
a second body. Every rule up to there is either reported or makes the table larger. -/
theorem foldlM_addRule_cases {table : RuleSet} {done : List (Symbol × Word)} (h : table.Holds done)
    (rules : List (Symbol × Word)) :
    (∃ last, rules.foldlM addRule table = ⟨.ok last, reports done rules⟩ ∧
        last.Holds (done ++ rules) ∧
        (reports done rules).length + last.size = table.size + rules.length) ∨
      ∃ before head second after first, rules = before ++ (head, second) :: after ∧
        Agreeing (done ++ before) ∧ (head, first) ∈ done ++ before ∧ first ≠ second ∧
        rules.foldlM addRule table =
          ⟨.error (.conflictingBodies head first second), reports done before⟩ := by
  induction rules generalizing table done with
  | nil =>
    refine Or.inl ⟨table, rfl, ?_, Nat.zero_add _⟩
    rw [List.append_nil]
    exact h
  | cons rule rules ih =>
    obtain ⟨head, body⟩ := rule
    rw [List.foldlM_cons]
    -- The rules that are done grow by this one, so the rest is added to a table that holds them.
    rcases addRule_cases h head body with
      ⟨next, hnext, hholds, hsize⟩ | ⟨first, hfirst, hne, herror⟩
    · rw [hnext, Logged.bind_of_ok _ rfl]
      rcases ih hholds with ⟨last, hlast, hall, hlength⟩ |
        ⟨before, head', second, after, first, rfl, hagree, hfirst, hne, herror⟩
      · refine Or.inl ⟨last, by rw [hlast, reports_cons done _ rules], ?_, ?_⟩
        · rw [List.append_cons]
          exact hall
        · rw [reports_cons done _ rules, List.length_append, List.length_cons]
          omega
      · refine Or.inr ⟨(head, body) :: before, head', second, after, first, rfl, ?_, ?_, hne, ?_⟩
        · rw [List.append_cons]
          exact hagree
        · rw [List.append_cons]
          exact hfirst
        · rw [herror, reports_cons done _ before]
    · rw [herror]
      refine Or.inr ⟨[], head, body, rules, first, rfl, ?_, ?_, hne, rfl⟩
      · rw [List.append_nil]
        exact h.agreeing
      · rw [List.append_nil]
        exact hfirst

/-- Starting from the empty table, all rules are added or those before the first contradiction. -/
theorem ofPairs_cases (rules : List (Symbol × Word)) :
    (∃ table, ofPairs rules = ⟨.ok table, reports [] rules⟩ ∧ table.Holds rules ∧
        (reports [] rules).length + table.size = rules.length) ∨
      ∃ before head second after first, rules = before ++ (head, second) :: after ∧
        Agreeing before ∧ (head, first) ∈ before ∧ first ≠ second ∧
        ofPairs rules = ⟨.error (.conflictingBodies head first second), reports [] before⟩ := by
  rcases foldlM_addRule_cases holds_empty rules with ⟨table, hok, hholds, hlength⟩ | hconflict
  · exact Or.inl ⟨table, hok, hholds, hlength.trans (Nat.zero_add _)⟩
  · exact Or.inr hconflict

/-- Rules that agree fit into a table. -/
theorem exists_ofPairs {rules : List (Symbol × Word)} (h : Agreeing rules) :
    ∃ table, (ofPairs rules).outcome = .ok table ∧ table.Holds rules := by
  rcases ofPairs_cases rules with
    ⟨table, hok, hholds, -⟩ | ⟨before, head, second, after, first, rfl, -, hfirst, hne, -⟩
  · exact ⟨table, by rw [hok], hholds⟩
  · exact absurd (h head first second (List.mem_append_left _ hfirst) (by simp)) hne

/-- The first rule with a head has the body that all rules with that head have. -/
theorem Agreeing.exists_first {rules : List (Symbol × Word)} (h : Agreeing rules) {head : Symbol}
    {body : Word} (hmem : (head, body) ∈ rules) :
    ∃ front back, rules = front ++ (head, body) :: back ∧ head ∉ front.map Prod.fst := by
  obtain ⟨front, back, rfl, hfront⟩ := List.eq_append_cons_of_mem hmem
  refine ⟨front, back, rfl, fun hhead => ?_⟩
  obtain ⟨⟨head', body'⟩, hrule, rfl⟩ := List.mem_map.1 hhead
  have hbody : body' = body := h _ _ _ (List.mem_append_left _ hrule) (by simp)
  exact hfront (hbody ▸ hrule)

/-- Every report is a warning. -/
theorem level_of_mem_reports {earlier rules : List (Symbol × Word)} {record : LogRecord}
    (h : record ∈ reports earlier rules) : record.level = .warn := by
  obtain ⟨rule, -, rfl⟩ := List.mem_map.1 h
  rfl

end RuleSet

/-- Rules fit into a table exactly if no head has two bodies in the list. The table then has the
listed rules and no others, whatever their order and however often one of them is listed, and each
rule of the list has either made the table larger or was reported, in the order of the list, as one
that stands in the list before. A list that does not fit is refused for the first rule whose head
has another body before it; the fault names the body that is listed first, and only what was
repeated before that rule has been reported. All reports are warnings. -/
theorem ofPairs_listed (rules : List (Symbol × Word)) :
    ((∃ table, (RuleSet.ofPairs rules).outcome = .ok table) ↔ RuleSet.Agreeing rules) ∧
    (∀ record ∈ (RuleSet.ofPairs rules).records, record.level = .warn) ∧
    (∀ table, (RuleSet.ofPairs rules).outcome = .ok table →
      (∀ head body, table.body? head = some body ↔ (head, body) ∈ rules) ∧
      (∀ rules' : List (Symbol × Word), (∀ rule, rule ∈ rules' ↔ rule ∈ rules) →
        (RuleSet.ofPairs rules').outcome = .ok table) ∧
      (RuleSet.ofPairs rules).records = RuleSet.reports [] rules ∧
      (RuleSet.ofPairs rules).records.length + table.size = rules.length) ∧
    ∀ fault, (RuleSet.ofPairs rules).outcome = .error fault →
      ∃ before head second after first, rules = before ++ (head, second) :: after ∧
        RuleSet.Agreeing before ∧
        (∃ front back, before = front ++ (head, first) :: back ∧ head ∉ front.map Prod.fst) ∧
        first ≠ second ∧ fault = .conflictingBodies head first second ∧
        (RuleSet.ofPairs rules).records = RuleSet.reports [] before := by
  rcases RuleSet.ofPairs_cases rules with ⟨table, hok, hholds, hlength⟩ |
    ⟨before, head, second, after, first, heq, hagree, hfirst, hne, herror⟩
  · rw [hok]
    refine ⟨iff_of_true ⟨table, rfl⟩ hholds.agreeing, fun _ => RuleSet.level_of_mem_reports, ?_,
      fun fault h => ?_⟩
    · rintro _ ⟨⟩
      refine ⟨hholds, fun rules' hmem => ?_, rfl, hlength⟩
      -- A table that holds these rules holds those of any list with the same rules.
      have hholds' : table.Holds rules' := fun head body =>
        (hholds head body).trans (hmem (head, body)).symm
      obtain ⟨table', hok', hlisted⟩ := RuleSet.exists_ofPairs hholds'.agreeing
      rw [hok', hlisted.unique hholds']
    · cases h
  · have hnot : ¬ RuleSet.Agreeing rules := by
      intro hall
      refine hne (hall head first second ?_ ?_)
      · rw [heq]
        exact List.mem_append_left _ hfirst
      · rw [heq]
        exact List.mem_append_right _ List.mem_cons_self
    rw [herror]
    refine ⟨iff_of_false ?_ hnot, fun _ => RuleSet.level_of_mem_reports, fun table h => ?_, ?_⟩
    · rintro ⟨table, h⟩
      cases h
    · cases h
    · rintro _ ⟨⟩
      exact ⟨before, head, second, after, first, heq, hagree, hagree.exists_first hfirst, hne, rfl,
        rfl⟩

/-- Two rules are repeated before the one that contradicts them, and one is behind it. -/
example : RuleSet.ofPairs [('F', ['G']), ('X', []), ('F', ['G']), ('X', []), ('F', ['X']),
    ('X', [])] =
      ⟨.error (.conflictingBodies 'F' ['G'] ['X']), [.repeatedRule 'F', .repeatedRule 'X']⟩ := by
  rfl

end TurtleCurves
