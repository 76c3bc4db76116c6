import TurtleCurves.Proofs.Expansion

/-!
# Handing out the generations

A supply of generations is a list that is written one word ahead of the requests: `toList` are the
words that are still to come, and a request takes the first of them (`next_eq`). So the answers to a
sequence of requests are the entries of one list, the generations of the grammar, and nothing from
its end on (`take_eq`).

The supply makes every step, while expansion and projection stop when nothing changes any more. The
three are therefore compared through the generations themselves, of which each knows on its own: the
last word handed out is the expansion, although that may have stopped long before, and the lengths
of the words are the projected lengths, of which the last stands for all that are left out.
-/

namespace TurtleCurves

namespace Generations

/-- The words that are still to be handed out, in order. -/
def toList (s : Generations) : List Word :=
  match s.current with
  | none => []
  | some w => (List.range (s.remaining + 1)).map fun k => s.grammar.iterate k w

theorem toList_some (g : Grammar) (w : Word) (n : Nat) :
    toList ⟨g, some w, n⟩ = (List.range (n + 1)).map fun k => g.iterate k w := rfl

/-- A request is answered with the first of the words to come, if there is one, and leaves the
others. -/
theorem next_eq (s : Generations) :
    s.next.1 = s.toList.head? ∧ s.next.2.toList = s.toList.tail := by
  obtain ⟨g, current, remaining⟩ := s
  cases current with
  | none => exact ⟨rfl, rfl⟩
  | some w =>
    cases remaining with
    | zero => exact ⟨rfl, rfl⟩
    | succ n =>
      -- The step is made when a word is handed out, one request before its result is asked for.
      have hlist : toList ⟨g, some w, n + 1⟩ = w :: toList ⟨g, some (g.step w), n⟩ := by
        rw [toList_some, List.range_succ_eq_map, List.map_cons, List.map_map]
        rfl
      rw [hlist]
      exact ⟨rfl, rfl⟩

/-- The answers are the words to come and, after the last of them, nothing. -/
theorem take_eq (s : Generations) (m : Nat) :
    s.take m = (List.range m).map (s.toList[·]?) := by
  -- By induction on the requests, from any supply; each takes the head of the list.
  induction m generalizing s with
  | zero => rfl
  | succ m ih =>
    obtain ⟨hhead, htail⟩ := s.next_eq
    rw [take, ih, hhead, htail, List.range_succ_eq_map, List.map_cons, List.map_map,
      List.head?_eq_getElem?]
    refine congrArg (_ :: ·) (List.map_congr_left fun k _ => ?_)
    rw [List.getElem?_tail, Function.comp_apply]

end Generations

namespace Grammar

/-- At first all generations are to come. -/
theorem toList_generations (g : Grammar) :
    g.generations.toList = (List.range (g.iterationCount + 1)).map g.generation := rfl

/-- The supply hands out as many words as there are generations, and every later request is answered
with nothing. The word with the number `k` is the generation `k`, its length is the projected length
with that number or, if there are not so many, the last one, and the last word is what expansion
without a ceiling answers. -/
theorem generations_handed_out (g : Grammar) :
    ∃ words : List Word,
      words.length = g.iterationCount + 1 ∧
      (∀ m, g.generations.take m = (List.range m).map (words[·]?)) ∧
      (∀ (k : Nat) (hk : k < words.length),
        words[k] = g.generation k ∧
          g.projectedLengths[min k (g.projectedLengths.length - 1)]? =
            some (min (2 ^ 128 - 1) words[k].length)) ∧
      ∃ last, words.getLast? = some last ∧ (g.expand none).outcome = .ok last := by
  have hwords := g.toList_generations
  have hlength : g.generations.toList.length = g.iterationCount + 1 := by
    rw [hwords, List.length_map, List.length_range]
  refine ⟨g.generations.toList, hlength, g.generations.take_eq, fun k hk => ?_,
    g.generation g.iterationCount, ?_, g.expand_none⟩
  · have hword : g.generations.toList[k] = g.generation k := by
      simp only [hwords, List.getElem_map, List.getElem_range]
    rw [hword, ← countCap_eq]
    exact ⟨rfl, g.getElem?_projectedLengths (by omega)⟩
  · rw [hwords, List.range_succ, List.map_append, List.map_singleton, List.getLast?_concat]

/-- Expansion and projection stop after two steps; the supply goes on to the fourth generation. -/
example :
    let g : Grammar :=
      ⟨['a'], (RuleSet.empty.insert 'a' ['b']).insert 'b' ['c'], 4, 1, ∅, ⟨90, 0, 1⟩⟩
    g.generations.take 6 =
      [some ['a'], some ['b'], some ['c'], some ['c'], some ['c'], none] ∧
      g.projectedLengths = [1, 1, 1] ∧ (g.expand none).outcome = .ok ['c'] := by
  decide +kernel

end Grammar

end TurtleCurves
