import TurtleCurves.Grammar.Basic
import TurtleCurves.Proofs.RuleText

/-!
# Which grammars come from records

A grammar is `Valid` if its numbers are in range and its symbols are such that the clauses of its
rules can be written down: no blank or separator where reading would drop it or cut the text at it.
The valid grammars are those that validation builds, and each of them is built from the record that
lists its rules and its skipped symbols, in whatever order (`toRecord`).

## Shape of the proof

`validate_eq_ok_iff` says what a successful validation is made of. One direction follows the symbols
of a rule back through `ReadsAs` into their clause, where no semicolon is left, since the text was
cut there. In the other direction nothing that is printed contains a blank, so trimming and
stripping change nothing, and the text is cut where it was joined (`ruleClauses_printRules`).
-/

namespace TurtleCurves

/-! ## Successful validation -/

/-- All three numbers are finite. -/
structure TurtleMotion.IsFinite (motion : TurtleMotion Float) : Prop where
  rotationAngle : NonFinite.of? motion.rotationAngle = none
  startingAngle : NonFinite.of? motion.startingAngle = none
  scaleCoefficient : NonFinite.of? motion.scaleCoefficient = none

/-- A sequence succeeds if both of its parts do. -/
theorem bind_eq_ok_iff {ε β γ : Type} {x : Except ε β} {f : β → Except ε γ} {c : γ} :
    (x >>= f) = .ok c ↔ ∃ b, x = .ok b ∧ f b = .ok c := by
  cases x <;> simp [bind, Except.bind]

namespace GrammarRecord

/-- The numbers that a record has for the turtle. -/
def motion (s : GrammarRecord) : TurtleMotion Float :=
  ⟨s.rotationAngle, s.startingAngle, s.coefficient⟩

/-- The number of iterations is accepted unless it is negative. -/
theorem checkIterations_eq_ok_iff {s : GrammarRecord} {n : Nat} :
    s.checkIterations = .ok n ↔ 0 ≤ s.iterations.toInt ∧ s.iterations.toInt.toNat = n := by
  rw [checkIterations]
  split <;> simp [*]

/-- The number of copies of the start word is accepted if it is at least one. -/
theorem checkRepeat_eq_ok_iff {s : GrammarRecord} {n : Nat} :
    s.checkRepeat = .ok n ↔ 1 ≤ s.startRepeat.toInt ∧ s.startRepeat.toInt.toNat = n := by
  rw [checkRepeat]
  split <;> simp [*]

/-- A number is accepted if it is finite. -/
theorem checkFinite_eq_ok_iff {quantity : Quantity} {value : Float} {u : Unit} :
    checkFinite quantity value = .ok u ↔ NonFinite.of? value = none := by
  rw [checkFinite]
  cases NonFinite.of? value <;> simp

/-- The numbers of a record are accepted if each of them is. -/
theorem checkNumbers_eq_ok_iff {s : GrammarRecord} {counts : Nat × Nat} :
    s.checkNumbers = .ok counts ↔
      0 ≤ s.iterations.toInt ∧ 1 ≤ s.startRepeat.toInt ∧ s.motion.IsFinite ∧
        counts = (s.iterations.toInt.toNat, s.startRepeat.toInt.toNat) := by
  simp only [checkNumbers, bind_eq_ok_iff, checkIterations_eq_ok_iff, checkRepeat_eq_ok_iff,
    checkFinite_eq_ok_iff]
  constructor
  · rintro ⟨_, ⟨hiterations, rfl⟩, _, ⟨hrepeat, rfl⟩, _, hrotation, _, hstarting, _, hscale, h⟩
    cases h
    exact ⟨hiterations, hrepeat, ⟨hrotation, hstarting, hscale⟩, rfl⟩
  · rintro ⟨hiterations, hrepeat, ⟨hrotation, hstarting, hscale⟩, rfl⟩
    exact ⟨_, ⟨hiterations, rfl⟩, _, ⟨hrepeat, rfl⟩, (), hrotation, (), hstarting, (), hscale, rfl⟩

/-- What a record is validated to. -/
theorem validate_eq_ok_iff {s : GrammarRecord} {g : Grammar} :
    s.validate.outcome = .ok g ↔
      0 ≤ s.iterations.toInt ∧ 1 ≤ s.startRepeat.toInt ∧ s.motion.IsFinite ∧
        ∃ rules, (RuleSet.parse s.rules.toList).outcome = .ok rules ∧
          g = ⟨s.start.toList, rules, s.iterations.toInt.toNat, s.startRepeat.toInt.toNat,
            Std.ExtTreeSet.ofList (Text.strip s.skipped.toList), s.motion⟩ := by
  simp only [validate, Logged.outcome_bind, Logged.ofExcept_outcome, Logged.outcome_pure,
    bind_eq_ok_iff, checkNumbers_eq_ok_iff]
  constructor
  · rintro ⟨_, ⟨hiterations, hrepeat, hfinite, rfl⟩, rules, hrules, h⟩
    cases h
    exact ⟨hiterations, hrepeat, hfinite, rules, hrules, rfl⟩
  · rintro ⟨hiterations, hrepeat, hfinite, rules, hrules, rfl⟩
    exact ⟨_, ⟨hiterations, hrepeat, hfinite, rfl⟩, rules, hrules, rfl⟩

end GrammarRecord

/-! ## Printing rules -/

/-- A rule can be written as a clause. -/
structure Printable (head : Symbol) (body : Word) : Prop where
  head_not_blank : Text.isBlank head = false
  head_ne_semicolon : head ≠ ';'
  head_ne_colon : head ≠ ':'
  body_not_blank : ∀ c ∈ body, Text.isBlank c = false
  semicolon_not_mem : ';' ∉ body

/-- A rule as a clause without blanks. -/
def printClause (rule : Symbol × Word) : Word :=
  rule.1 :: ':' :: rule.2

/-- Rules as a text. -/
def printRules (rules : List (Symbol × Word)) : List Char :=
  [';'].intercalate (rules.map printClause)

/-- A clause holds no separator of clauses. -/
theorem not_mem_of_mem_ruleClauses {text : List Char} {clause : Word}
    (h : clause ∈ ruleClauses text) : ';' ∉ clause := by
  obtain ⟨hmap, -⟩ := List.mem_filter.1 h
  obtain ⟨piece, hpiece, rfl⟩ := List.mem_map.1 hmap
  exact fun hmem => not_mem_of_mem_splitOn hpiece (Text.mem_of_mem_trim hmem)

/-- What can be read can be printed. -/
theorem ReadsAs.printable {clause : Word} {head : Symbol} {body : Word}
    (h : ReadsAs clause head body) (hclause : ';' ∉ clause) : Printable head body := by
  obtain ⟨before, after, rfl, hbefore, hhead, rfl⟩ := h
  have hmem : head ∈ before := Text.mem_of_mem_trim <| by
    rw [hhead]
    exact List.mem_singleton_self head
  rw [List.mem_append, List.mem_cons, not_or, not_or] at hclause
  refine ⟨Text.isBlank_of_trim_eq_cons hhead, ?_, ?_, fun c hc => (Text.mem_strip.1 hc).2, ?_⟩
  · rintro rfl
    exact hclause.1 hmem
  · rintro rfl
    exact hbefore hmem
  · exact fun hc => hclause.2.2 (Text.mem_strip.1 hc).1

namespace Printable

variable {head : Symbol} {body : Word} (h : Printable head body)

include h

/-- Nothing in a printed clause is blank. -/
theorem not_isBlank_printClause : ∀ c ∈ printClause (head, body), Text.isBlank c = false := by
  intro c hc
  rcases List.mem_cons.1 hc with rfl | hc
  · exact h.head_not_blank
  · rcases List.mem_cons.1 hc with rfl | hc
    · rfl
    · exact h.body_not_blank c hc

/-- There is no semicolon in a printed clause. -/
theorem semicolon_not_mem_printClause : ';' ∉ printClause (head, body) := by
  rw [printClause, List.mem_cons, List.mem_cons, not_or, not_or]
  exact ⟨fun heq => h.head_ne_semicolon heq.symm, by decide, h.semicolon_not_mem⟩

/-- A printed rule reads as the rule. -/
theorem readsAs_printClause : ReadsAs (printClause (head, body)) head body := by
  refine ⟨[head], body, rfl, ?_, ?_, (Text.strip_of_not_isBlank h.body_not_blank).symm⟩
  · rw [List.mem_singleton]
    exact fun heq => h.head_ne_colon heq.symm
  · refine Text.trim_of_not_isBlank fun c hc => ?_
    rw [List.mem_singleton.1 hc]
    exact h.head_not_blank

end Printable

/-- A printed text has the printed rules as its clauses. -/
theorem ruleClauses_printRules {rules : List (Symbol × Word)}
    (h : ∀ rule ∈ rules, Printable rule.1 rule.2) :
    ruleClauses (printRules rules) = rules.map printClause := by
  -- Joining and cutting are inverse to one another only if there is a clause to begin with.
  cases rules with
  | nil => decide
  | cons first rest =>
    have hsplit : (printRules (first :: rest)).splitOn ';' = (first :: rest).map printClause := by
      refine List.splitOn_intercalate ';' ?_ (List.cons_ne_nil _ _)
      intro clause hclause
      obtain ⟨rule, hrule, rfl⟩ := List.mem_map.1 hclause
      exact (h rule hrule).semicolon_not_mem_printClause
    have htrim : ((first :: rest).map printClause).map Text.trim =
        (first :: rest).map printClause := by
      rw [List.map_map]
      exact List.map_congr_left fun rule hrule =>
        Text.trim_of_not_isBlank (h rule hrule).not_isBlank_printClause
    rw [ruleClauses, hsplit, htrim, List.filter_eq_self]
    intro clause hclause
    obtain ⟨rule, -, rfl⟩ := List.mem_map.1 hclause
    rfl

/-- Printing the rules of a table, in whatever order, and reading them gives the table back. -/
theorem RuleSet.parse_printRules {table : RuleSet} {rules : List (Symbol × Word)}
    (h : ∀ head body, table.body? head = some body → Printable head body)
    (hperm : rules.Perm table.toList) :
    (RuleSet.parse (printRules rules)).outcome = .ok table := by
  have hholds : table.Holds rules := (holds_toList table).of_perm hperm
  have hprintable : ∀ rule ∈ rules, Printable rule.1 rule.2 := fun rule hrule =>
    h rule.1 rule.2 ((hholds rule.1 rule.2).2 hrule)
  have hread : (ruleClauses (printRules rules)).mapM parseClause = .ok rules := by
    refine mapM_eq_ok_of_map ?_
    rw [ruleClauses_printRules hprintable, List.map_map]
    exact List.map_congr_left fun rule hrule =>
      parseClause_eq_ok_of_readsAs (hprintable rule hrule).readsAs_printClause
  -- Adding the rules gives a table that holds them, and there is only one.
  obtain ⟨table', hok, hholds'⟩ := exists_ofPairs hholds.agreeing
  rw [parse_of_mapM_eq_ok hread, hok, hholds.unique hholds']

/-! ## Valid grammars -/

namespace Grammar

/-- The grammar is one that validation can build. -/
structure Valid (g : Grammar) : Prop where
  iterationCount : g.iterationCount < 2 ^ 63
  startRepeat : 1 ≤ g.startRepeat ∧ g.startRepeat < 2 ^ 63
  motion : g.motion.IsFinite
  rules : ∀ head body, g.rules.body? head = some body → Printable head body
  skipped : ∀ c ∈ g.skipped, Text.isBlank c = false

/-- The record of a grammar that lists its rules and its skipped symbols in the given order. -/
def toRecord (g : Grammar) (rules : List (Symbol × Word)) (skipped : List Symbol) :
    GrammarRecord where
  start := g.start.text
  startRepeat := Int64.ofNat g.startRepeat
  rules := String.ofList (printRules rules)
  rotationAngle := g.motion.rotationAngle
  iterations := Int64.ofNat g.iterationCount
  skipped := String.ofList skipped
  startingAngle := g.motion.startingAngle
  coefficient := g.motion.scaleCoefficient

/-- What validation builds is valid. -/
theorem valid_of_validate {s : GrammarRecord} {g : Grammar} (h : s.validate.outcome = .ok g) :
    g.Valid := by
  obtain ⟨hiterations, hrepeat, hfinite, rules, hrules, rfl⟩ :=
    GrammarRecord.validate_eq_ok_iff.1 h
  have hiterations' := s.iterations.toInt_lt
  have hrepeat' := s.startRepeat.toInt_lt
  refine ⟨?_, ?_, hfinite, fun head body hbody => ?_, fun c hc => ?_⟩
  · show s.iterations.toInt.toNat < 2 ^ 63
    omega
  · show 1 ≤ s.startRepeat.toInt.toNat ∧ s.startRepeat.toInt.toNat < 2 ^ 63
    omega
  · -- The rule stands in some clause, and no clause has a semicolon.
    obtain ⟨clause, hclause, hreads⟩ := (RuleSet.body?_of_parse hrules head body).1 hbody
    exact hreads.printable (not_mem_of_mem_ruleClauses hclause)
  · have hmem : c ∈ Text.strip s.skipped.toList :=
      List.contains_iff_mem.1 (Std.ExtTreeSet.mem_ofList.1 hc)
    exact (Text.mem_strip.1 hmem).2

/-- A valid grammar is built from its record, in whatever order its rules and its skipped symbols
are listed. -/
theorem Valid.validate_toRecord {g : Grammar} (h : g.Valid) {rules : List (Symbol × Word)}
    {skipped : List Symbol} (hrules : rules.Perm g.rules.toList)
    (hskipped : skipped.Perm g.skipped.toList) :
    (g.toRecord rules skipped).validate.outcome = .ok g := by
  have hiterations : (Int64.ofNat g.iterationCount).toInt = g.iterationCount :=
    Int64.toInt_ofNat_of_lt h.iterationCount
  have hrepeat : (Int64.ofNat g.startRepeat).toInt = g.startRepeat :=
    Int64.toInt_ofNat_of_lt h.startRepeat.2
  have hmem : ∀ c, c ∈ skipped ↔ c ∈ g.skipped := fun c => by
    rw [hskipped.mem_iff, Std.ExtTreeSet.mem_toList]
  have hset : Std.ExtTreeSet.ofList (Text.strip skipped) = g.skipped := by
    rw [Text.strip_of_not_isBlank fun c hc => h.skipped c ((hmem c).1 hc)]
    refine Std.ExtTreeSet.ext_mem fun c => ?_
    rw [Std.ExtTreeSet.mem_ofList, List.contains_iff_mem, hmem]
  -- The counts fit into 64 bits with sign, so they are read back from the record as they are.
  refine GrammarRecord.validate_eq_ok_iff.2 ⟨?_, ?_, h.motion, g.rules, ?_, ?_⟩
  · show 0 ≤ (Int64.ofNat g.iterationCount).toInt
    rw [hiterations]
    exact Int.natCast_nonneg _
  · show 1 ≤ (Int64.ofNat g.startRepeat).toInt
    rw [hrepeat]
    exact Int.ofNat_le.2 h.startRepeat.1
  · rw [toRecord, String.toList_ofList]
    exact RuleSet.parse_printRules h.rules hrules
  · simp only [toRecord, GrammarRecord.motion, Word.text, String.toList_ofList, hiterations,
      hrepeat, hset, Int.toNat_natCast]

end Grammar

/-- Validation builds valid grammars only, and it builds every valid grammar from the text that its
rules print to in any order and from its skipped symbols in any order. In particular a grammar that
was built from one record is built again from its own. -/
theorem validate_roundTrip (g : Grammar) :
    (∀ record : GrammarRecord, record.validate.outcome = .ok g →
      g.Valid ∧
      ∀ (rules : List (Symbol × Word)) (skipped : List Symbol),
        rules.Perm g.rules.toList → skipped.Perm g.skipped.toList →
        (g.toRecord rules skipped).validate.outcome = .ok g) ∧
    (g.Valid →
      ∀ (rules : List (Symbol × Word)) (skipped : List Symbol),
        rules.Perm g.rules.toList → skipped.Perm g.skipped.toList →
        (g.toRecord rules skipped).validate.outcome = .ok g) := by
  refine ⟨fun record h => ?_, fun hvalid rules skipped => hvalid.validate_toRecord⟩
  have hvalid := Grammar.valid_of_validate h
  exact ⟨hvalid, fun rules skipped => hvalid.validate_toRecord⟩

/-- A grammar with a colon in a body and with an empty body, printed in descending order. -/
theorem validate_roundTrip_colons :
    ∃ g : Grammar,
      ({ start := "FX", rules := " X : F : [+X] ; F : ;", rotationAngle := 90, iterations := 3,
         skipped := "+ -" } : GrammarRecord).validate.outcome = .ok g ∧
      (g.toRecord g.rules.toList.reverse g.skipped.toList.reverse).validate.outcome = .ok g := by
  obtain ⟨g, hg⟩ : ∃ g : Grammar,
      ({ start := "FX", rules := " X : F : [+X] ; F : ;", rotationAngle := 90, iterations := 3,
         skipped := "+ -" } : GrammarRecord).validate.outcome = .ok g := ⟨_, rfl⟩
  exact ⟨g, hg, ((validate_roundTrip g).1 _ hg).2 _ _ (List.reverse_perm _) (List.reverse_perm _)⟩

end TurtleCurves
