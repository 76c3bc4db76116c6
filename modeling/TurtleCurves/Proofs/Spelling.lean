import TurtleCurves.Proofs.PrimitiveCounts

/-!
# Words that spell the same commands

A symbol counts only through its command, and a symbol without a command counts only through its
place: it shifts the positions that an error names. `spelled` is what is left of a word under a
table, its commands without those that do nothing, and `places` are the positions of the symbols
that these commands come from. Words that are spelled alike are answered alike, and so are the words
that differ by ignored symbols and the words of the standard alphabet in either built-in alphabet.

## Shape of the proof

`Walk.perform` walks along commands with positions instead of a word. A walk along a word is that
of its `effective` commands (`along_eq_perform`), which is where the ignored symbols disappear; and
performing the same commands at other positions changes nothing but the position in an error
(`perform_alike`).
-/

namespace TurtleCurves

variable {α γ : Type}

/-! ## Positions in errors -/

/-- The same error with its position moved, if it names one. -/
def CurveError.reposition (f : Nat → Nat) : CurveError α → CurveError α
  | unbalancedBranch index drawn => unbalancedBranch (f index) drawn
  | invalidGrammar (.zeroCoefficient index) => invalidGrammar (.zeroCoefficient (f index))
  | e => e

/-- A position that is moved twice is moved by one after the other. -/
theorem CurveError.reposition_reposition (f g : Nat → Nat) (e : CurveError α) :
    (e.reposition f).reposition g = e.reposition fun index => g (f index) := by
  cases e with
  | invalidGrammar fault => cases fault <;> rfl
  | _ => rfl

/-- The error of a fault names the position at which the fault is met, if it names one. -/
theorem StepFault.reposition_toError (s : Settings α) (index : Nat) (f : Nat → Nat)
    (drawn : Drawing α) (fault : StepFault) :
    (fault.toError s index drawn).reposition f = fault.toError s (f index) drawn := by
  cases fault <;> rfl

/-- Both answers are the same value, or the same error but for the position that it names: if it
names one, these are entries of the two lists with the same number. -/
def AnswersAlike (places places' : List Nat) (x y : Except (CurveError α) γ) : Prop :=
  (∃ a, x = .ok a ∧ y = .ok a) ∨
    ∃ (e : CurveError α) (k p p' : Nat), places[k]? = some p ∧ places'[k]? = some p' ∧
      x = .error (e.reposition fun _ => p) ∧ y = .error (e.reposition fun _ => p')

namespace AnswersAlike

variable {places places' : List Nat} {x y : Except (CurveError α) γ}

/-- One more position in front of both lists changes no number. -/
theorem cons (h : AnswersAlike places places' x y) (p p' : Nat) :
    AnswersAlike (p :: places) (p' :: places') x y := by
  obtain hok | ⟨e, k, q, q', hq, hq', hx, hy⟩ := h
  · exact Or.inl hok
  · exact Or.inr ⟨e, k + 1, q, q', hq, hq', hx, hy⟩

/-- Whatever is made of the values, the answers stay alike. -/
theorem map {δ : Type} (h : AnswersAlike places places' x y) (g : γ → δ) :
    AnswersAlike places places' (x.map g) (y.map g) := by
  obtain ⟨a, rfl, rfl⟩ | ⟨e, k, p, p', hp, hp', rfl, rfl⟩ := h
  · exact Or.inl ⟨g a, rfl, rfl⟩
  · exact Or.inr ⟨e, k, p, p', hp, hp', rfl, rfl⟩

/-- If the second list is the first one moved, the second answer is the first one moved. -/
theorem eq_mapError {f : Nat → Nat} (h : AnswersAlike places (places.map f) x y) :
    y = x.mapError (CurveError.reposition f) := by
  obtain ⟨a, rfl, rfl⟩ | ⟨e, k, p, p', hp, hp', rfl, rfl⟩ := h
  · rfl
  · rw [List.getElem?_map, hp, Option.map_some, Option.some.injEq] at hp'
    rw [Except.mapError, CurveError.reposition_reposition, hp']

end AnswersAlike

/-! ## What a word spells -/

/-- The command does something. -/
def Command.acts : Command α → Bool
  | ignore => false
  | _ => true

/-- Only an ignored symbol does nothing. -/
theorem Command.acts_eq_false_iff {cmd : Command α} : cmd.acts = false ↔ cmd = .ignore := by
  cases cmd <;> simp [acts]

namespace SymbolTable

variable (table : SymbolTable α)

/-- The commands of a word that do something, each with the position of its symbol; the first symbol
has the given position. -/
def effective (index : Nat) (w : Word) : List (Command α × Nat) :=
  ((w.map table.command).zipIdx index).filter fun c => c.1.acts

/-- The commands of a word that do something. -/
def spelled (w : Word) : List (Command α) :=
  (w.map table.command).filter Command.acts

/-- The positions of the symbols of a word whose commands do something. -/
def places (w : Word) : List Nat :=
  (table.effective 0 w).map Prod.snd

/-- The first symbol counts if its command does something. -/
theorem effective_cons (index : Nat) (c : Symbol) (w : Word) :
    table.effective index (c :: w) =
      if (table.command c).acts then (table.command c, index) :: table.effective (index + 1) w
      else table.effective (index + 1) w := by
  rw [effective, List.map_cons, List.zipIdx_cons, List.filter_cons]
  rfl

/-- The second part is counted from the position at which it begins. -/
theorem effective_append (index : Nat) (u v : Word) :
    table.effective index (u ++ v) =
      table.effective index u ++ table.effective (index + u.length) v := by
  rw [effective, List.map_append, List.zipIdx_append, List.filter_append, List.length_map]
  rfl

/-- Without their positions the commands that do something are what the word spells. -/
theorem map_fst_effective (index : Nat) (w : Word) :
    (table.effective index w).map Prod.fst = table.spelled w := by
  induction w generalizing index with
  | nil => rfl
  | cons c w ih =>
    rw [effective_cons, spelled, List.map_cons, List.filter_cons]
    split
    · rw [List.map_cons, ih, spelled]
    · rw [ih, spelled]

theorem spelled_append (u v : Word) :
    table.spelled (u ++ v) = table.spelled u ++ table.spelled v := by
  rw [spelled, List.map_append, List.filter_append]
  rfl

/-- Ignored symbols spell nothing. -/
theorem spelled_eq_nil {x : Word} (h : ∀ c ∈ x, table.command c = .ignore) :
    table.spelled x = [] := by
  rw [spelled, List.filter_eq_nil_iff, List.forall_mem_map]
  intro c hc
  rw [h c hc]
  exact Bool.false_ne_true

/-- Ignored symbols leave no command, at whatever position they stand. -/
theorem effective_eq_nil {x : Word} (h : ∀ c ∈ x, table.command c = .ignore) (index : Nat) :
    table.effective index x = [] := by
  rw [← List.map_eq_nil_iff (f := Prod.fst), map_fst_effective, table.spelled_eq_nil h]

/-- Where the first symbol stands further on, so do all of them. -/
theorem map_snd_effective_add (index shift : Nat) (w : Word) :
    (table.effective (index + shift) w).map Prod.snd =
      ((table.effective index w).map Prod.snd).map (· + shift) := by
  induction w generalizing index with
  | nil => rfl
  | cons c w ih =>
    rw [effective_cons, effective_cons, Nat.add_right_comm]
    split
    · rw [List.map_cons, List.map_cons, List.map_cons, ih]
    · exact ih _

/-- The symbols that do something are symbols of the word. -/
theorem lt_of_mem_places {w : Word} {p : Nat} (h : p ∈ table.places w) : p < w.length := by
  rw [places, List.mem_map] at h
  obtain ⟨⟨cmd, p⟩, h, rfl⟩ := h
  have hlt := List.snd_lt_add_of_mem_zipIdx (List.mem_of_mem_filter h)
  rwa [List.length_map, Nat.zero_add] at hlt

/-- Ignored symbols that are put into a word move the positions behind them. -/
theorem places_insert {x : Word} (h : ∀ c ∈ x, table.command c = .ignore) (u v : Word) :
    table.places (u ++ x ++ v) =
      (table.places (u ++ v)).map fun p => if p < u.length then p else p + x.length := by
  have hbefore : ∀ p ∈ (table.effective 0 u).map Prod.snd,
      (if p < u.length then p else p + x.length) = p := by
    intro p hp
    rw [if_pos (table.lt_of_mem_places hp)]
  have hbehind : ∀ p ∈ (table.effective u.length v).map Prod.snd,
      (if p < u.length then p else p + x.length) = p + x.length := by
    intro p hp
    obtain ⟨⟨cmd, p⟩, hmem, rfl⟩ := List.mem_map.1 hp
    have hle := List.le_snd_of_mem_zipIdx (List.mem_of_mem_filter hmem)
    rw [if_neg (Nat.not_lt.2 hle)]
  -- The word is taken apart into `u`, `x` and `v`, of which `x` has no places and `v` is moved.
  rw [places, places, effective_append, effective_append, effective_append,
    table.effective_eq_nil h, List.append_nil, List.length_append, Nat.zero_add, Nat.zero_add,
    List.map_append, List.map_append, List.map_append, List.map_congr_left hbefore, List.map_id',
    List.map_congr_left hbehind, map_snd_effective_add]

/-- A symbol that stands for a command keeps it through bindings that bind it to nothing else. -/
theorem command_setAll_of_forall {table : SymbolTable α} {c : Symbol} {cmd : Command α}
    {bindings : List (Symbol × Command α)} (h : table.command c = cmd)
    (hbindings : ∀ b ∈ bindings, b.1 = c → b.2 = cmd) :
    (table.setAll bindings).command c = cmd := by
  induction bindings generalizing table with
  | nil => exact h
  | cons b bindings ih =>
    rw [List.forall_mem_cons] at hbindings
    have hset : (table.set b.1 b.2).command c = cmd := by
      rw [command_set]
      split
      · next hc => exact hbindings.1 hc
      · exact h
    exact ih hset hbindings.2

end SymbolTable

/-! ## Walks along commands -/

section Scalar

variable [Scalar α] {s : Settings α}

namespace Walk

/-- Performs commands in order, each at its position. -/
def perform (s : Settings α) : Walk α → List (Command α × Nat) → Except (CurveError α) (Walk α)
  | walk, [] => .ok walk
  | walk, (cmd, index) :: cmds =>
      match walk.machine.step s cmd with
      | .ok (machine, primitives) => perform s ⟨machine, walk.path.append primitives⟩ cmds
      | .error fault => .error (fault.toError s index walk.path)

/-- A walk along a word performs the commands of the word that do something. -/
theorem along_eq_perform (table : SymbolTable α) (index : Nat) (walk : Walk α) (w : Word) :
    along table s index walk w = perform s walk (table.effective index w) := by
  induction w generalizing index walk with
  | nil => rfl
  | cons c w ih =>
    rw [along_cons, SymbolTable.effective_cons, step]
    by_cases hacts : (table.command c).acts = true
    · rw [if_pos hacts, perform]
      cases walk.machine.step s (table.command c) with
      | ok next => exact ih _ _
      | error fault => rfl
    · -- An ignored symbol adds nothing to the path and only moves the positions behind it.
      rw [if_neg hacts, Command.acts_eq_false_iff.1 (Bool.eq_false_of_not_eq_true hacts)]
      exact ih _ _

/-- The same commands at other positions take a walk to the same end, or fail alike. -/
theorem perform_alike (walk : Walk α) {cmds cmds' : List (Command α × Nat)}
    (h : cmds.map Prod.fst = cmds'.map Prod.fst) :
    AnswersAlike (cmds.map Prod.snd) (cmds'.map Prod.snd) (perform s walk cmds)
      (perform s walk cmds') := by
  induction cmds generalizing walk cmds' with
  | nil =>
    obtain rfl := List.map_eq_nil_iff.1 h.symm
    exact Or.inl ⟨walk, rfl, rfl⟩
  | cons c cmds ih =>
    cases cmds' with
    | nil => cases h
    | cons c' cmds' =>
      obtain ⟨cmd, p⟩ := c
      obtain ⟨cmd', p'⟩ := c'
      obtain ⟨rfl, hrest⟩ : cmd = cmd' ∧ cmds.map Prod.fst = cmds'.map Prod.fst :=
        List.cons.inj h
      rw [perform, perform, List.map_cons, List.map_cons]
      cases walk.machine.step s cmd with
      | ok next => exact (ih ⟨next.1, walk.path.append next.2⟩ hrest).cons p p'
      | error fault =>
        -- The first commands of both words fail, each at its own position.
        refine Or.inr ⟨fault.toError s 0 walk.path, 0, p, p', rfl, rfl, ?_, ?_⟩
        · rw [StepFault.reposition_toError]
        · rw [StepFault.reposition_toError]

end Walk

/-! ## Answers -/

namespace Interpreter

/-- Words that are spelled alike are answered alike. -/
theorem interpret_alike {interpreter interpreter' : Interpreter α} {motion : TurtleMotion α}
    {w w' : Word}
    (hoptions : interpreter'.options =
      { interpreter.options with alphabet := interpreter'.options.alphabet })
    (h : interpreter.table.spelled w = interpreter'.table.spelled w') :
    AnswersAlike (interpreter.table.places w) (interpreter'.table.places w')
      (interpreter.interpret w motion) (interpreter'.interpret w' motion) := by
  refine AnswersAlike.map ?_ _
  rw [walk, walk, hoptions, Walk.along_eq_perform, Walk.along_eq_perform]
  -- With the same options both walks start alike, so only the commands are left to compare.
  refine Walk.perform_alike _ ?_
  rw [SymbolTable.map_fst_effective, SymbolTable.map_fst_effective, h]

/-- Words whose symbols stand for the same commands one by one have the same answer. -/
theorem interpret_congr {interpreter interpreter' : Interpreter α} {motion : TurtleMotion α}
    {w : Word}
    (hoptions : interpreter'.options =
      { interpreter.options with alphabet := interpreter'.options.alphabet })
    (h : w.map interpreter.table.command = w.map interpreter'.table.command) :
    interpreter'.interpret w motion = interpreter.interpret w motion := by
  rw [interpret, interpret, walk, walk, hoptions, Walk.along_eq_perform, Walk.along_eq_perform,
    SymbolTable.effective, SymbolTable.effective, h]
  rfl

end Interpreter

/-! ## The built-in alphabets -/

namespace Alphabet

/-- The symbols of the standard alphabet. -/
def standardSymbols : List Symbol :=
  ['F', 'G', '+', '-', '[', ']', '*', '.']

/-- The standard alphabet binds the standard symbols. -/
theorem map_fst_standardBindings :
    (standardBindings : List (Symbol × Command α)).map Prod.fst = standardSymbols := rfl

/-- What the classic alphabet adds beside letters are no standard symbols. -/
theorem not_mem_standardSymbols_of_extended {b : Symbol × Command α} (hb : b ∈ extendedBindings) :
    b.1 ∉ standardSymbols := by
  have hall : ∀ b ∈ (extendedBindings : List (Symbol × Command α)), b.1 ∉ standardSymbols := by
    simp [extendedBindings, standardSymbols]
  exact hall b hb

/-- Of the letters only `F` and `G` are standard symbols, and they draw in both alphabets. -/
theorem command_standard_of_letter {b : Symbol × Command α} (hb : b ∈ letterBindings)
    (hsymbols : b.1 ∈ standardSymbols) : (standard.table : SymbolTable α).command b.1 = b.2 := by
  -- A letter is bound as a capital and as a small letter; among the standard symbols are two
  -- capitals.
  have hupper : drawingCapitals.filter (· ∈ standardSymbols) = ['F', 'G'] := by decide
  have hlower : drawingCapitals.filter (·.toLower ∈ standardSymbols) = [] := by decide
  obtain ⟨c, hc, hb⟩ := List.mem_flatMap.1 hb
  rw [List.mem_cons, List.mem_singleton] at hb
  rcases hb with rfl | rfl
  · have hmem : c ∈ drawingCapitals.filter (· ∈ standardSymbols) :=
      List.mem_filter.2 ⟨hc, decide_eq_true hsymbols⟩
    rw [hupper, List.mem_cons, List.mem_singleton] at hmem
    rcases hmem with rfl | rfl
    · exact command_standard 'F'
    · exact command_standard 'G'
  · have hmem : c ∈ drawingCapitals.filter (·.toLower ∈ standardSymbols) :=
      List.mem_filter.2 ⟨hc, decide_eq_true hsymbols⟩
    rw [hlower] at hmem
    exact absurd hmem List.not_mem_nil

/-- The classic alphabet leaves the standard symbols as they are. -/
theorem command_classic_of_mem {c : Symbol} (h : c ∈ standardSymbols) :
    (classic.table : SymbolTable α).command c = (standard.table : SymbolTable α).command c := by
  have hclassic : (classic.table : SymbolTable α) =
      (standard.table : SymbolTable α).setAll (letterBindings ++ extendedBindings) := by
    rw [table, SymbolTable.addAlphabet, bindings, List.append_assoc, SymbolTable.setAll,
      List.foldl_append]
    rfl
  rw [hclassic]
  refine SymbolTable.command_setAll_of_forall rfl fun b hb hbc => ?_
  subst hbc
  rcases List.mem_append.1 hb with hletter | hextended
  · exact (command_standard_of_letter hletter h).symm
  · exact absurd h (not_mem_standardSymbols_of_extended hextended)

end Alphabet

/-- A drawing depends on symbols only through the commands that they stand for. Words that are
spelled alike, under two tables and options that differ at most in the alphabet, have the same path
or fail with the same error, but for the position, which is that of the corresponding symbol in each
word. So ignored symbols can be put in or left out anywhere, whatever the table, and move only the
positions behind them; and the two built-in alphabets agree on every word of standard symbols. -/
theorem interpret_spelling (interpreter : Interpreter α) (motion : TurtleMotion α) (w : Word) :
    (∀ (interpreter' : Interpreter α) (w' : Word),
      interpreter'.options =
        { interpreter.options with alphabet := interpreter'.options.alphabet } →
      (w.map interpreter.table.command).filter Command.acts =
        (w'.map interpreter'.table.command).filter Command.acts →
      AnswersAlike (interpreter.table.places w) (interpreter'.table.places w')
        (interpreter.interpret w motion) (interpreter'.interpret w' motion)) ∧
    (∀ u x v : Word, (∀ c ∈ x, interpreter.table.command c = .ignore) →
      interpreter.interpret (u ++ x ++ v) motion =
        (interpreter.interpret (u ++ v) motion).mapError
          (CurveError.reposition fun p => if p < u.length then p else p + x.length)) ∧
    ((∀ c ∈ w, c ∈ (Alphabet.standardBindings : List (Symbol × Command α)).map Prod.fst) →
      (Interpreter.ofOptions { interpreter.options with alphabet := .classic }).interpret w motion =
        (Interpreter.ofOptions { interpreter.options with alphabet := .standard }).interpret w
          motion) := by
  refine ⟨fun interpreter' w' => Interpreter.interpret_alike, fun u x v hx => ?_, fun hw => ?_⟩
  · have hspelled : interpreter.table.spelled (u ++ v) =
        interpreter.table.spelled (u ++ x ++ v) := by
      rw [SymbolTable.spelled_append, SymbolTable.spelled_append, SymbolTable.spelled_append,
        interpreter.table.spelled_eq_nil hx, List.append_nil]
    have halike : AnswersAlike (interpreter.table.places (u ++ v))
        (interpreter.table.places (u ++ x ++ v)) (interpreter.interpret (u ++ v) motion)
        (interpreter.interpret (u ++ x ++ v) motion) := Interpreter.interpret_alike rfl hspelled
    rw [interpreter.table.places_insert hx] at halike
    exact halike.eq_mapError
  · rw [Alphabet.map_fst_standardBindings] at hw
    refine Interpreter.interpret_congr rfl ?_
    exact List.map_congr_left fun c hc => (Alphabet.command_classic_of_mem (hw c hc)).symm

/-- A return without a branch, spelled with other symbols and with ignored ones between them; the
same with ignored symbols put in; and a word of standard symbols in the classic alphabet. -/
theorem interpret_spelling_return :
    ∃ drawn,
      (Interpreter.ofOptions DrawingOptions.standard).interpret "F]".toList ⟨90, 0, 1⟩ =
        .error (.unbalancedBranch 1 drawn) ∧
      (⟨.ofList [('a', .draw), ('b', .pop)], DrawingOptions.standard⟩ : Interpreter Float).interpret
          "xaxb".toList ⟨90, 0, 1⟩ = .error (.unbalancedBranch 3 drawn) ∧
      (Interpreter.ofOptions DrawingOptions.standard).interpret "Fxyz]".toList ⟨90, 0, 1⟩ =
        .error (.unbalancedBranch 4 drawn) ∧
      (Interpreter.ofOptions { DrawingOptions.standard with alphabet := .classic }).interpret
          "F]".toList ⟨90, 0, 1⟩ = .error (.unbalancedBranch 1 drawn) := by
  obtain ⟨drawn, h⟩ : ∃ drawn,
      (Interpreter.ofOptions DrawingOptions.standard).interpret "F]".toList ⟨90, 0, 1⟩ =
        .error (.unbalancedBranch 1 drawn) := ⟨_, rfl⟩
  obtain ⟨halike, hinsert, hclassic⟩ :=
    interpret_spelling (Interpreter.ofOptions DrawingOptions.standard) ⟨90, 0, 1⟩ "F]".toList
  refine ⟨drawn, h, ?_, ?_, ?_⟩
  · have hanswers :=
      halike ⟨.ofList [('a', .draw), ('b', .pop)], DrawingOptions.standard⟩ "xaxb".toList rfl rfl
    -- The symbols that count stand at 0 and 1 in the one word and at 1 and 3 in the other.
    have hplaces : (SymbolTable.ofList [('a', .draw), ('b', .pop)] : SymbolTable Float).places
        "xaxb".toList =
          ((Interpreter.ofOptions DrawingOptions.standard).table.places "F]".toList).map
            (2 * · + 1) := by decide +kernel
    rw [hplaces] at hanswers
    rw [hanswers.eq_mapError, h]
    rfl
  · have hignored : ∀ c ∈ "xyz".toList,
        (Interpreter.ofOptions DrawingOptions.standard).table.command c = .ignore :=
      List.forall_mem_cons.2 ⟨rfl, List.forall_mem_cons.2 ⟨rfl, List.forall_mem_singleton.2 rfl⟩⟩
    have hshort := hinsert ['F'] "xyz".toList [']'] hignored
    rw [show ['F'] ++ [']'] = "F]".toList from rfl, h] at hshort
    exact hshort
  · rw [← h]
    exact hclassic (by simp [Alphabet.standardBindings])

end Scalar

end TurtleCurves
