import TurtleCurves.Proofs.Validation
import TurtleCurves.Render

/-!
# Blanks in a record do not matter

Two records whose rule texts differ in blanks, and whose lists of skipped symbols name the same
symbols, are validated alike: to the same grammar, or not at all.

## Shape of the proof

Reading drops blanks in three places: around a clause, around its head and inside its body; and a
clause of blanks is left out. All of that amounts to reading the text without its blanks
(`RuleSet.parse_strip`). The text is cut at the same semicolons (`splitOn_strip`), and a clause
reads as the rule, or has the fault, that it would have without blanks (`parseClause_strip`). What
does depend on the blanks is the wording of a fault that quotes a clause, so the answers are
compared up to the blanks in what is quoted (`GrammarFault.withoutBlanks`).
-/

namespace TurtleCurves

/-! ## Clauses -/

/-- Cutting a text at a symbol that is not blank can be done before or after its blanks are dropped.
-/
theorem splitOn_strip {x : Char} (hx : Text.isBlank x = false) (s : List Char) :
    (Text.strip s).splitOn x = (s.splitOn x).map Text.strip := by
  -- By induction on the text; every symbol but `x` lengthens the first piece of the rest.
  induction s with
  | nil => rfl
  | cons c s ih =>
    rw [List.splitOn_cons_eq_if_modifyHead]
    by_cases hc : c = x
    · subst hc
      rw [Text.strip_cons_of_not_isBlank s hx, List.splitOn_cons_eq_if_modifyHead,
        if_pos (beq_self_eq_true c), if_pos (beq_self_eq_true c), ih]
      rfl
    · have hne : ¬ (c == x) = true := fun heq => hc (beq_iff_eq.1 heq)
      obtain ⟨first, rest, hsplit⟩ := List.exists_cons_of_ne_nil (List.splitOn_ne_nil x s)
      rw [hsplit, List.map_cons] at ih
      rw [if_neg hne, hsplit, List.modifyHead_cons, List.map_cons]
      -- The first piece of the text begins with `c`, and so does that of the stripped text unless
      -- `c` is blank.
      by_cases hblank : Text.isBlank c = true
      · rw [Text.strip_cons_of_isBlank s hblank, Text.strip_cons_of_isBlank first hblank, ih]
      · rw [Bool.not_eq_true] at hblank
        rw [Text.strip_cons_of_not_isBlank s hblank, Text.strip_cons_of_not_isBlank first hblank,
          List.splitOn_cons_eq_if_modifyHead, if_neg hne, ih, List.modifyHead_cons]

/-- The clauses of a text without blanks are the clauses without their blanks. -/
theorem ruleClauses_strip (text : List Char) :
    ruleClauses (Text.strip text) = (ruleClauses text).map Text.strip := by
  rw [ruleClauses, ruleClauses, splitOn_strip (by decide)]
  induction text.splitOn ';' with
  | nil => rfl
  | cons piece pieces ih =>
    rw [List.map_cons, List.map_cons, List.map_cons, Text.trim_strip]
    -- A piece of blanks counts neither before nor after.
    by_cases hpiece : Text.strip piece = []
    · rw [List.filter_cons_of_neg (by simp [hpiece]),
        List.filter_cons_of_neg (by simp [Text.trim_eq_nil_iff.2 hpiece]), ih]
    · have htrim : Text.trim piece ≠ [] := fun h => hpiece (Text.trim_eq_nil_iff.1 h)
      rw [List.filter_cons_of_pos (by simpa using hpiece),
        List.filter_cons_of_pos (by simpa using htrim), List.map_cons, Text.strip_trim, ih]

/-- The fault without the blanks in what it quotes of the rule text. -/
def GrammarFault.withoutBlanks : GrammarFault → GrammarFault
  | missingColon clause => missingColon (Text.strip clause)
  | emptyHead clause => emptyHead (Text.strip clause)
  | longHead head => longHead (Text.strip head)
  | fault => fault

/-- Dropping blanks brings in no colon. -/
theorem colon_not_mem_strip {s : Word} (h : ':' ∉ s) : ':' ∉ Text.strip s :=
  fun hmem => h (Text.mem_strip.1 hmem).1

/-- The first colon divides a clause without its blanks as it divides the clause. -/
theorem strip_append_colon (before after : Word) :
    Text.strip (before ++ ':' :: after) = Text.strip before ++ ':' :: Text.strip after := by
  rw [Text.strip_append, Text.strip_cons_of_not_isBlank after (by decide)]

/-- A clause means the same without its blanks. -/
theorem ReadsAs.strip {clause : Word} {head : Symbol} {body : Word}
    (h : ReadsAs clause head body) : ReadsAs (Text.strip clause) head body := by
  obtain ⟨before, after, rfl, hcolon, hhead, rfl⟩ := h
  refine ⟨Text.strip before, Text.strip after, strip_append_colon before after,
    colon_not_mem_strip hcolon, ?_, ?_⟩
  · rw [Text.trim_strip]
    exact Text.trim_eq_singleton_iff.1 hhead
  · exact (Text.strip_of_not_isBlank fun _ hc => (Text.mem_strip.1 hc).2).symm

/-- A clause has the same thing wrong with it without its blanks. -/
theorem Malformed.strip {clause : Word} {fault : GrammarFault} (h : Malformed clause fault) :
    Malformed (Text.strip clause) fault.withoutBlanks := by
  cases h with
  | missingColon hcolon => exact .missingColon (colon_not_mem_strip hcolon)
  | @emptyHead before after hcolon hhead =>
    rw [GrammarFault.withoutBlanks, strip_append_colon]
    refine .emptyHead (colon_not_mem_strip hcolon) ?_
    rw [Text.trim_strip]
    exact Text.trim_eq_nil_iff.1 hhead
  | @longHead before after hcolon hhead =>
    have hquoted : Text.strip (Text.trim before) = Text.trim (Text.strip before) := by
      rw [Text.strip_trim, Text.trim_strip]
    rw [GrammarFault.withoutBlanks, strip_append_colon, hquoted]
    refine .longHead (colon_not_mem_strip hcolon) ?_
    rw [Text.trim_strip]
    exact Text.two_le_length_trim_iff.1 hhead

/-- Reading a clause is reading it without its blanks. -/
theorem parseClause_strip (clause : Word) :
    parseClause (Text.strip clause) =
      (parseClause clause).mapError GrammarFault.withoutBlanks := by
  rcases readable_or_malformed clause with ⟨head, body, hreads⟩ | ⟨fault, hmalformed⟩
  · rw [parseClause_eq_ok_of_readsAs hreads, parseClause_eq_ok_of_readsAs hreads.strip]
    rfl
  · rw [parseClause_eq_error_of_malformed hmalformed,
      parseClause_eq_error_of_malformed hmalformed.strip]
    rfl

/-! ## Texts -/

/-- Clauses are read alike without their blanks, up to the first that cannot be read. -/
theorem mapM_parseClause_strip (clauses : List Word) :
    (clauses.map Text.strip).mapM parseClause =
      (clauses.mapM parseClause).mapError GrammarFault.withoutBlanks := by
  induction clauses with
  | nil => rfl
  | cons clause clauses ih =>
    rw [List.map_cons, List.mapM_cons, List.mapM_cons, parseClause_strip, ih]
    cases parseClause clause with
    | error fault => rfl
    | ok rule => cases clauses.mapM parseClause <;> rfl

namespace RuleSet

/-- Contradicting rules are quoted without blanks. -/
theorem mapError_ofPairs (rules : List (Symbol × Word)) :
    (ofPairs rules).mapError GrammarFault.withoutBlanks = ofPairs rules := by
  rcases ofPairs_cases rules with ⟨table, hok, -⟩ | ⟨_, head, second, _, first, -, -, -, -, herror⟩
  · rw [hok]
    rfl
  · rw [herror]
    rfl

/-- Reading a text is reading it without its blanks. -/
theorem parse_strip (text : List Char) :
    parse (Text.strip text) = (parse text).mapError GrammarFault.withoutBlanks := by
  rw [parse, parse, Logged.mapError_bind, ruleClauses_strip, mapM_parseClause_strip]
  simp only [mapError_ofPairs]
  rfl

end RuleSet

/-! ## Records -/

namespace GrammarRecord

/-- The records differ in their rules and their skipped symbols alone: the rules have the same
symbols in the same order, and the same symbols are skipped, when blanks are not counted. -/
structure SameButBlanks (s s' : GrammarRecord) : Prop where
  rules : Text.strip s.rules.toList = Text.strip s'.rules.toList
  skipped : ∀ c, Text.isBlank c = false → (c ∈ s.skipped.toList ↔ c ∈ s'.skipped.toList)
  rest : s' = { s with rules := s'.rules, skipped := s'.skipped }

/-- Records that differ in blanks are validated alike, up to the blanks in what a fault quotes. -/
theorem validate_mapError_eq {s s' : GrammarRecord} (h : s.SameButBlanks s') :
    s.validate.mapError GrammarFault.withoutBlanks =
      s'.validate.mapError GrammarFault.withoutBlanks := by
  have hrules : (RuleSet.parse s.rules.toList).mapError GrammarFault.withoutBlanks =
      (RuleSet.parse s'.rules.toList).mapError GrammarFault.withoutBlanks := by
    rw [← RuleSet.parse_strip, ← RuleSet.parse_strip, h.rules]
  have hskipped : (Std.ExtTreeSet.ofList (Text.strip s.skipped.toList) : Std.ExtTreeSet Symbol) =
      Std.ExtTreeSet.ofList (Text.strip s'.skipped.toList) := by
    refine Std.ExtTreeSet.ext_mem fun c => ?_
    rw [Std.ExtTreeSet.mem_ofList, Std.ExtTreeSet.mem_ofList, List.contains_iff_mem,
      List.contains_iff_mem, Text.mem_strip, Text.mem_strip]
    exact and_congr_left (h.skipped c)
  have hnumbers : s'.checkNumbers = s.checkNumbers := by
    rw [h.rest]
    rfl
  -- The numbers come first and are the same, so only the rules can make a difference.
  rw [validate, validate, Logged.mapError_bind, Logged.mapError_bind, hnumbers]
  simp only [Logged.mapError_bind, hrules, hskipped]
  rw [h.rest]

/-- A record that is refused is refused for the same reason when it is to be drawn. -/
theorem outcome_render_of_error {s : GrammarRecord} {fault : GrammarFault}
    (h : s.validate.outcome = .error fault) (options : DrawingOptions Float) :
    (s.render options).outcome = .error (.invalidGrammar fault) := by
  rw [render, Logged.outcome_bind, Logged.mapError, h]
  rfl

end GrammarRecord

/-- Blanks that are inserted into or removed from the rules and the skipped symbols of a record, and
another order or repetition of the skipped symbols, change nothing: both records are validated, to
the same grammar and with the same reports, and then rendered alike under all options; or neither
is, for faults that differ at most in blanks that they quote, and nothing is rendered. -/
theorem validate_blanks {s s' : GrammarRecord} (h : s.SameButBlanks s') :
    ((∃ g, s.validate.outcome = .ok g) ↔ ∃ g, s'.validate.outcome = .ok g) ∧
    (∀ g, s.validate.outcome = .ok g →
      s'.validate = s.validate ∧ ∀ options, s'.render options = s.render options) ∧
    ∀ fault, s.validate.outcome = .error fault →
      ∃ fault', s'.validate.outcome = .error fault' ∧
        fault'.withoutBlanks = fault.withoutBlanks ∧
        ∀ options, (s.render options).outcome = .error (.invalidGrammar fault) ∧
          (s'.render options).outcome = .error (.invalidGrammar fault') := by
  have hsame := GrammarRecord.validate_mapError_eq h
  refine ⟨⟨?_, ?_⟩, fun g hg => ?_, fun fault hfault => ?_⟩
  · rintro ⟨g, hg⟩
    exact ⟨g, by rw [Logged.eq_of_mapError_eq hsame hg, hg]⟩
  · rintro ⟨g, hg⟩
    exact ⟨g, by rw [Logged.eq_of_mapError_eq hsame.symm hg, hg]⟩
  · have heq : s'.validate = s.validate := Logged.eq_of_mapError_eq hsame hg
    refine ⟨heq, fun options => ?_⟩
    rw [GrammarRecord.render, GrammarRecord.render, heq]
  · obtain ⟨fault', hfault', hquoted⟩ := Logged.exists_error_of_mapError_eq hsame hfault
    exact ⟨fault', hfault', hquoted, fun options =>
      ⟨GrammarRecord.outcome_render_of_error hfault options,
        GrammarRecord.outcome_render_of_error hfault' options⟩⟩

/-- Blanks of three kinds around and inside clauses, a blank clause, and skipped symbols in another
order and with a repetition. -/
theorem validate_blanks_spaced :
    ∃ g : Grammar,
      ({ start := "F", rules := " F\u00a0: F + F ; ;\nX :", rotationAngle := 90, iterations := 2,
         skipped := "+ -" } : GrammarRecord).validate.outcome = .ok g ∧
      ({ start := "F", rules := "F:F+F;;X:", rotationAngle := 90, iterations := 2,
         skipped := "-+-" } : GrammarRecord).validate.outcome = .ok g := by
  obtain ⟨g, hg⟩ : ∃ g : Grammar,
      ({ start := "F", rules := " F\u00a0: F + F ; ;\nX :", rotationAngle := 90, iterations := 2,
         skipped := "+ -" } : GrammarRecord).validate.outcome = .ok g := ⟨_, rfl⟩
  have hsame : GrammarRecord.SameButBlanks
      { start := "F", rules := " F\u00a0: F + F ; ;\nX :", rotationAngle := 90, iterations := 2,
        skipped := "+ -" }
      { start := "F", rules := "F:F+F;;X:", rotationAngle := 90, iterations := 2,
        skipped := "-+-" } := by
    refine ⟨by decide +kernel, fun c hc => ?_, rfl⟩
    have hblank : c ≠ ' ' := fun heq => absurd hc (by rw [heq]; decide)
    simp [hblank]
    tauto
  refine ⟨g, hg, ?_⟩
  rw [((validate_blanks hsame).2.1 g hg).1, hg]

/-- A blank in a head is not lost: both records are refused, but the message quotes the head as it
is written, so the results of rendering are not equal. -/
theorem render_quotes_blanks :
    let spaced : GrammarRecord :=
      { start := "F", rules := "A B:C", rotationAngle := 90, iterations := 1 }
    let tight : GrammarRecord :=
      { start := "F", rules := "AB:C", rotationAngle := 90, iterations := 1 }
    let quoted : CurveError Float := .invalidGrammar (.longHead "A B".toList)
    let quoted' : CurveError Float := .invalidGrammar (.longHead "AB".toList)
    spaced.SameButBlanks tight ∧ spaced.render .standard ≠ tight.render .standard ∧
      (spaced.render .standard).outcome = .error quoted ∧
      (tight.render .standard).outcome = .error quoted' ∧
      quoted.message = "invalid grammar: rule head 'A B' must be a single symbol" ∧
      quoted'.message = "invalid grammar: rule head 'AB' must be a single symbol" := by
  intro spaced tight quoted quoted'
  have hsame : spaced.SameButBlanks tight := ⟨by decide +kernel, fun c _ => Iff.rfl, rfl⟩
  have hspaced : (spaced.render .standard).outcome = .error quoted :=
    GrammarRecord.outcome_render_of_error (by decide +kernel) .standard
  have htight : (tight.render .standard).outcome = .error quoted' :=
    GrammarRecord.outcome_render_of_error (by decide +kernel) .standard
  refine ⟨hsame, fun heq => ?_, hspaced, htight, rfl, rfl⟩
  rw [heq, htight] at hspaced
  have hhead : "AB".toList = "A B".toList :=
    GrammarFault.longHead.inj (CurveError.invalidGrammar.inj (Except.error.inj hspaced))
  exact absurd hhead (by decide)

end TurtleCurves
