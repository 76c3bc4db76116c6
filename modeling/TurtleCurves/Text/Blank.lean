/-!
# Blank characters

Rule texts are written with cosmetic spacing.  What counts as spacing is the Unicode property
`White_Space`, twenty-five code points in ten ranges; every other character is a symbol.

* `isBlank` decides the property.
* `trim` drops the blanks at both ends of a text, `strip` drops them everywhere.
-/

namespace TurtleCurves.Text

/-- The inclusive ranges of code points with the property `White_Space`. -/
def blankRanges : List (Nat × Nat) :=
  [(0x9, 0xD), (0x20, 0x20), (0x85, 0x85), (0xA0, 0xA0), (0x1680, 0x1680), (0x2000, 0x200A),
    (0x2028, 0x2029), (0x202F, 0x202F), (0x205F, 0x205F), (0x3000, 0x3000)]

/-- A character is blank when its code point lies in one of the ranges. -/
def isBlank (c : Char) : Bool :=
  blankRanges.any fun r => r.1 ≤ c.toNat && c.toNat ≤ r.2

/-- The text without its leading blanks. -/
def trimLeft (s : List Char) : List Char :=
  s.dropWhile isBlank

/-- The text without its leading and trailing blanks. -/
def trim (s : List Char) : List Char :=
  (trimLeft (trimLeft s).reverse).reverse

/-- The text without any of its blanks. -/
def strip (s : List Char) : List Char :=
  s.filter fun c => !isBlank c

@[simp] theorem strip_nil : strip [] = [] := rfl

/-- Two parts are stripped apart. -/
theorem strip_append (s t : List Char) : strip (s ++ t) = strip s ++ strip t :=
  List.filter_append s t

/-- Membership in a stripped text: a symbol of the text that is not blank. -/
theorem mem_strip {c : Char} {s : List Char} : c ∈ strip s ↔ c ∈ s ∧ isBlank c = false := by
  simp [strip]

/-- A text without blanks is left as it is. -/
theorem strip_of_not_isBlank {s : List Char} (h : ∀ c ∈ s, isBlank c = false) : strip s = s := by
  rw [strip, List.filter_eq_self]
  intro c hc
  rw [h c hc]
  rfl

theorem strip_cons_of_isBlank {c : Char} (s : List Char) (h : isBlank c = true) :
    strip (c :: s) = strip s := by
  rw [strip, List.filter_cons_of_neg (by simp [h])]
  rfl

theorem strip_cons_of_not_isBlank {c : Char} (s : List Char) (h : isBlank c = false) :
    strip (c :: s) = c :: strip s := by
  rw [strip, List.filter_cons_of_pos (by simp [h])]
  rfl

/-! ## Trimming -/

/-- Blanks in front of a text are dropped with its own leading blanks. -/
theorem trimLeft_append_of_isBlank {left : List Char} (h : ∀ c ∈ left, isBlank c = true)
    (s : List Char) : trimLeft (left ++ s) = trimLeft s :=
  List.dropWhile_append_of_pos h

/-- A text that does not begin with a blank is left alone on the left. -/
theorem trimLeft_eq_self {s : List Char} (h : ∀ c t, s = c :: t → isBlank c = false) :
    trimLeft s = s := by
  cases s with
  | nil => rfl
  | cons c t => rw [trimLeft, List.dropWhile_cons_of_neg (by simp [h c t rfl])]

/-- Trimming on the left leaves what trimming leaves and blanks behind it. -/
theorem exists_trimLeft_eq (s : List Char) :
    ∃ right, trimLeft s = trim s ++ right ∧ ∀ c ∈ right, isBlank c = true := by
  -- The blanks behind a text are those in front of the reversed text.
  refine ⟨((trimLeft s).reverse.takeWhile isBlank).reverse, ?_, fun c hc => ?_⟩
  · show trimLeft s = ((trimLeft s).reverse.dropWhile isBlank).reverse ++ _
    rw [← List.reverse_append, List.takeWhile_append_dropWhile, List.reverse_reverse]
  · exact List.all_eq_true.1 List.all_takeWhile c (List.mem_reverse.1 hc)

/-- Trimming brings nothing new into a text. -/
theorem mem_of_mem_trim {c : Char} {s : List Char} (h : c ∈ trim s) : c ∈ s := by
  obtain ⟨right, hright, -⟩ := exists_trimLeft_eq s
  have hleft : c ∈ trimLeft s := by
    rw [hright]
    exact List.mem_append_left right h
  exact (List.dropWhile_sublist isBlank).subset hleft

/-- What is left by trimming on the left does not begin with a blank. -/
theorem isBlank_of_trimLeft_eq_cons {c : Char} {s t : List Char} (h : trimLeft s = c :: t) :
    isBlank c = false := by
  have hhead := List.head?_dropWhile_not isBlank s
  rw [← trimLeft, h] at hhead
  exact hhead

/-- A trimmed text does not begin with a blank. -/
theorem isBlank_of_trim_eq_cons {c : Char} {s t : List Char} (h : trim s = c :: t) :
    isBlank c = false := by
  obtain ⟨right, hright, -⟩ := exists_trimLeft_eq s
  rw [h, List.cons_append] at hright
  exact isBlank_of_trimLeft_eq_cons hright

/-- The last symbol of a trimmed text is not blank. -/
theorem isBlank_of_trim_eq_append {c : Char} {s t : List Char} (h : trim s = t ++ [c]) :
    isBlank c = false := by
  -- The last symbol is the first that is left when the reversed text is trimmed on the left.
  have hreverse : trimLeft (trimLeft s).reverse = c :: t.reverse := by
    rw [← List.reverse_reverse (trimLeft (trimLeft s).reverse), ← trim, h, List.reverse_append,
      List.reverse_singleton, List.singleton_append]
  exact isBlank_of_trimLeft_eq_cons hreverse

/-- The second text is the first without the blanks at its ends: around it stand blanks only, and it
neither begins nor ends with one. -/
structure TrimsTo (s t : List Char) : Prop where
  ends : ∃ left right, s = left ++ (t ++ right) ∧ (∀ c ∈ left, isBlank c = true) ∧
    ∀ c ∈ right, isBlank c = true
  first : ∀ c rest, t = c :: rest → isBlank c = false
  last : ∀ c rest, t = rest ++ [c] → isBlank c = false

/-- The blanks at both ends can be taken off in one way only, and trimming does so. -/
theorem trimsTo_iff {s t : List Char} : TrimsTo s t ↔ trim s = t := by
  constructor
  · rintro ⟨⟨left, right, rfl, hleft, hright⟩, hfirst, hlast⟩
    rw [trim, trimLeft_append_of_isBlank hleft]
    cases t with
    | nil =>
      -- Nothing is left between the blanks, so all of them go in the first pass.
      have hnone : trimLeft (right ++ []) = [] := trimLeft_append_of_isBlank hright []
      rw [List.nil_append, ← List.append_nil right, hnone]
      rfl
    | cons c rest =>
      -- Between the blanks nothing is taken off on either side, since neither end is blank.
      have hwhole : trimLeft (c :: rest ++ right) = c :: rest ++ right :=
        trimLeft_eq_self fun d _ heq => hfirst d rest (by rw [(List.cons.inj heq).1])
      have hreverse : trimLeft (c :: rest).reverse = (c :: rest).reverse :=
        trimLeft_eq_self fun d t heq => hlast d t.reverse (by
          rw [← List.reverse_reverse (c :: rest), heq, List.reverse_cons])
      rw [hwhole, List.reverse_append,
        trimLeft_append_of_isBlank fun d hd => hright d (List.mem_reverse.1 hd), hreverse,
        List.reverse_reverse]
  · rintro rfl
    obtain ⟨right, hright, hblank⟩ := exists_trimLeft_eq s
    have hleft : ∀ c ∈ s.takeWhile isBlank, isBlank c = true :=
      List.all_eq_true.1 List.all_takeWhile
    refine ⟨⟨s.takeWhile isBlank, right, ?_, hleft, hblank⟩,
      fun c rest h => isBlank_of_trim_eq_cons h, fun c rest h => isBlank_of_trim_eq_append h⟩
    rw [← hright, trimLeft, List.takeWhile_append_dropWhile]

/-- A text without blanks needs no trimming. -/
theorem trim_of_not_isBlank {s : List Char} (h : ∀ c ∈ s, isBlank c = false) : trim s = s := by
  refine trimsTo_iff.1 ⟨⟨[], [], by simp, by simp, by simp⟩, ?_, ?_⟩
  · rintro c rest rfl
    exact h c List.mem_cons_self
  · rintro c rest rfl
    exact h c (List.mem_append_right rest List.mem_cons_self)

/-! ## Trimming and stripping -/

/-- The blanks that are dropped on the left are dropped anyway. -/
theorem strip_trimLeft (s : List Char) : strip (trimLeft s) = strip s := by
  induction s with
  | nil => rfl
  | cons c s ih =>
    by_cases h : isBlank c = true
    · rw [trimLeft, List.dropWhile_cons_of_pos h, strip_cons_of_isBlank s h]
      exact ih
    · rw [trimLeft, List.dropWhile_cons_of_neg h]

/-- What trimming drops, stripping drops too. -/
theorem strip_trim (s : List Char) : strip (trim s) = strip s := by
  have hreverse : ∀ t : List Char, strip t.reverse = (strip t).reverse := fun _ =>
    List.filter_reverse
  rw [trim, hreverse, strip_trimLeft, hreverse, List.reverse_reverse, strip_trimLeft]

/-- A stripped text needs no trimming. -/
theorem trim_strip (s : List Char) : trim (strip s) = strip s :=
  trim_of_not_isBlank fun _ hc => (mem_strip.1 hc).2

/-- A text that is trimmed to nothing has blanks only. -/
theorem trim_eq_nil_iff {s : List Char} : trim s = [] ↔ strip s = [] := by
  constructor
  · intro h
    rw [← strip_trim, h, strip_nil]
  · intro h
    cases htrim : trim s with
    | nil => rfl
    | cons c t =>
      rw [← strip_trim, htrim, strip_cons_of_not_isBlank t (isBlank_of_trim_eq_cons htrim)] at h
      cases h

/-- A text that is trimmed to one symbol has no other that is not blank. -/
theorem trim_eq_singleton_iff {c : Char} {s : List Char} : trim s = [c] ↔ strip s = [c] := by
  constructor
  · intro h
    rw [← strip_trim, h, strip_cons_of_not_isBlank [] (isBlank_of_trim_eq_cons h), strip_nil]
  · intro h
    cases htrim : trim s with
    | nil =>
      rw [trim_eq_nil_iff, h] at htrim
      cases htrim
    | cons first rest =>
      rw [← strip_trim, htrim,
        strip_cons_of_not_isBlank rest (isBlank_of_trim_eq_cons htrim)] at h
      obtain ⟨rfl, hrest⟩ := List.cons.inj h
      -- A further symbol would end in one that is not blank.
      rcases List.eq_nil_or_concat rest with rfl | ⟨t, last, rfl⟩
      · rfl
      · rw [List.concat_eq_append] at htrim hrest
        have hlast : isBlank last = false :=
          isBlank_of_trim_eq_append (t := first :: t) htrim
        have hmem : last ∈ strip (t ++ [last]) := mem_strip.2 ⟨by simp, hlast⟩
        rw [hrest] at hmem
        cases hmem

/-- A text is trimmed to more than one symbol exactly if more than one of its symbols is not blank.
-/
theorem two_le_length_trim_iff {s : List Char} :
    2 ≤ (trim s).length ↔ 2 ≤ (strip s).length := by
  have hlong : ∀ t : List Char, 2 ≤ t.length ↔ t ≠ [] ∧ ∀ c, t ≠ [c] := by
    intro t
    match t with
    | [] | [c] | c :: d :: t => simp
  simp only [hlong, ne_eq, trim_eq_nil_iff, trim_eq_singleton_iff]

end TurtleCurves.Text
