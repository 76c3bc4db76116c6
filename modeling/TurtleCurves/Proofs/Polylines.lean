import TurtleCurves.Drawing.Polyline
import TurtleCurves.Proofs.Budget
import TurtleCurves.Proofs.Replay

/-!
# Polylines draw the segments of a path

The polylines of a path are compared with the segments that a plotter draws when it replays the
path. Laid end to end the polylines are these segments, in order and each in its colour
(`drawn_trace`), and two successive segments share a polyline exactly if nothing between them lifts
the pen or changes the colour.

## The invariant

While a path is traced, the run in progress is never empty, it ends at the pen, and it has the
current colour (`Tracer.Follows`). What has been drawn so far is what the tracer would give out if
the path ended here (`Tracer.runs`): a move or a change of colour leaves it as it is, and a segment
adds itself to its last run or begins a new one.

Where runs are separated is settled by what is finished. A cut finishes all that was drawn before
it, and finished runs stay (`exists_runs_trace`), so a polyline ends there. A run in progress that
has been drawn can only grow (`exists_runs_trace_of_two_le`), so a segment that follows without a
cut is in the polyline of the one before.
-/

namespace TurtleCurves

variable {α : Type}

/-! ## The segments of a polyline -/

namespace Polyline

/-- Each point of a polyline but the last is joined to the next one. -/
def segments (run : Polyline α) : List (Segment α) :=
  List.zipWith (Segment.mk run.color) run.points run.points.tail

/-- There is one segment less than there are points. -/
@[simp] theorem length_segments (run : Polyline α) :
    run.segments.length = run.points.length - 1 := by
  rw [segments, List.length_zipWith, List.length_tail]
  omega

/-- A further point adds the segment that leads to it. -/
theorem segments_concat (color : ColorIndex) (points : List (Vec3 α)) (a b : Vec3 α) :
    segments ⟨color, points ++ [a, b]⟩ = segments ⟨color, points ++ [a]⟩ ++ [⟨color, a, b⟩] := by
  -- The new segment is at the end, and the list is zipped from the front.
  induction points with
  | nil => rfl
  | cons p points ih =>
    cases points with
    | nil => rfl
    | cons q points => exact congrArg (Segment.mk color p q :: ·) ih

end Polyline

/-- The segments with the numbers `k` and `k + 1` lie in one run, all segments of the runs being
numbered through from 0. -/
def Joined (runs : List (Polyline α)) (k : Nat) : Prop :=
  ∃ before run after, runs = before ++ run :: after ∧
    (before.flatMap Polyline.segments).length ≤ k ∧
    k + 1 < (before.flatMap Polyline.segments).length + run.segments.length

/-- Where a run ends, the segment before and the segment behind are not joined. -/
theorem not_joined_of_append {before after : List (Polyline α)} {k : Nat}
    (h : (before.flatMap Polyline.segments).length = k + 1) : ¬ Joined (before ++ after) k := by
  rintro ⟨front, run, back, heq, hle, hlt⟩
  rcases List.append_eq_append_iff.1 heq with ⟨more, rfl, -⟩ | ⟨more, rfl, hrun⟩
  · rw [List.flatMap_append, List.length_append] at hle
    omega
  · -- The run is the first of those that `before` has beyond `front`, unless there is none.
    cases more with
    | nil =>
      rw [List.append_nil] at h
      omega
    | cons first more =>
      obtain ⟨rfl, -⟩ := List.cons.inj hrun
      rw [List.flatMap_append, List.flatMap_cons, List.length_append, List.length_append] at h
      omega

/-- The primitive ends a run of the given colour. -/
def Primitive.Cuts (color : ColorIndex) : Primitive α → Prop
  | moveTo _ => True
  | setColor c => c ≠ color
  | lineTo _ | setScale _ => False

/-! ## What a tracer has found -/

namespace Tracer

/-- The polylines of a path that ends at this state. -/
def runs (t : Tracer α) : List (Polyline α) :=
  t.flush.done.reverse

/-- Follows primitives in order. -/
def trace (t : Tracer α) (ps : List (Primitive α)) : Tracer α :=
  ps.foldl step t

/-- The segments that have been drawn so far. -/
def drawn (t : Tracer α) : List (Segment α) :=
  t.runs.flatMap Polyline.segments

@[simp] theorem trace_nil (t : Tracer α) : t.trace [] = t := rfl

@[simp] theorem trace_cons (t : Tracer α) (p : Primitive α) (ps : List (Primitive α)) :
    t.trace (p :: ps) = (t.step p).trace ps := rfl

theorem trace_append (t : Tracer α) (ps qs : List (Primitive α)) :
    t.trace (ps ++ qs) = (t.trace ps).trace qs :=
  List.foldl_append

/-- Finishing a run keeps the colour. -/
@[simp] theorem color_flush (t : Tracer α) : t.flush.color = t.color := by
  unfold flush
  split <;> rfl

@[simp] theorem pen_flush (t : Tracer α) : t.flush.pen = t.pen := by
  unfold flush
  split <;> rfl

/-- A run of two points or more is given out behind the finished ones. -/
theorem runs_of_two_le {t : Tracer α} (h : 2 ≤ t.run.length) :
    t.runs = t.done.reverse ++ [⟨t.color, t.run.reverse⟩] := by
  rw [runs, flush]
  match hrun : t.run with
  | [] | [_] => rw [hrun] at h; simp at h
  | _ :: _ :: _ => exact List.reverse_cons

theorem runs_of_lt_two {t : Tracer α} (h : t.run.length < 2) : t.runs = t.done.reverse := by
  rw [runs, flush]
  match hrun : t.run with
  | [] | [_] => rfl
  | _ :: _ :: rest =>
    rw [hrun, List.length_cons, List.length_cons] at h
    omega

/-- The run in progress is given out exactly if it has drawn something. -/
theorem runs_eq (t : Tracer α) :
    2 ≤ t.run.length ∧ t.runs = t.done.reverse ++ [⟨t.color, t.run.reverse⟩] ∨
      t.run.length < 2 ∧ t.runs = t.done.reverse := by
  rcases Nat.lt_or_ge t.run.length 2 with h | h
  · exact Or.inr ⟨h, runs_of_lt_two h⟩
  · exact Or.inl ⟨h, runs_of_two_le h⟩

/-- The run in progress counts with what it has drawn, even if that is nothing. -/
theorem drawn_eq (t : Tracer α) :
    t.drawn = t.done.reverse.flatMap Polyline.segments ++
      Polyline.segments ⟨t.color, t.run.reverse⟩ := by
  rcases t.runs_eq with ⟨-, hruns⟩ | ⟨hlt, hruns⟩
  · rw [drawn, hruns, List.flatMap_append, List.flatMap_singleton]
  · -- A run that is dropped has no segment, so nothing is lost.
    have hnone : Polyline.segments ⟨t.color, t.run.reverse⟩ = [] := by
      rw [← List.length_eq_zero_iff, Polyline.length_segments, List.length_reverse]
      omega
    rw [drawn, hruns, hnone, List.append_nil]

/-- A primitive that cuts finishes what has been drawn. -/
theorem done_step_of_cuts {t : Tracer α} {p : Primitive α} (h : p.Cuts t.color) :
    (t.step p).done.reverse = t.runs := by
  cases p with
  | moveTo v => rfl
  | setColor c =>
    rw [step, if_neg h]
    rfl
  | lineTo v | setScale a => exact h.elim

/-- After a cut the run in progress has drawn nothing. -/
theorem length_run_step_of_cuts {t : Tracer α} {p : Primitive α} (h : p.Cuts t.color) :
    (t.step p).run.length = 1 := by
  cases p with
  | moveTo v => rfl
  | setColor c =>
    rw [step, if_neg h]
    rfl
  | lineTo v | setScale a => exact h.elim

/-- Only a segment and a cut change the state. -/
theorem step_of_not_cuts {t : Tracer α} {p : Primitive α} (h : ¬ p.Cuts t.color)
    (hline : p.isLine = false) : t.step p = t := by
  cases p with
  | moveTo v => exact absurd trivial h
  | lineTo v => cases hline
  | setColor c => rw [step, if_pos (not_ne_iff.1 h)]
  | setScale a => rfl

/-- What a primitive does to a state: it cuts, or it lengthens the run, or nothing. -/
theorem step_cases (t : Tracer α) (p : Primitive α) :
    p.Cuts t.color ∨ (∃ v, p = .lineTo v) ∨ t.step p = t := by
  by_cases hcut : p.Cuts t.color
  · exact Or.inl hcut
  · cases hline : p.isLine with
    | false => exact Or.inr (Or.inr (step_of_not_cuts hcut hline))
    | true =>
      cases p with
      | lineTo v => exact Or.inr (Or.inl ⟨v, rfl⟩)
      | moveTo _ | setColor _ | setScale _ => cases hline

/-! ## Finished runs -/

/-- Finished runs stay. -/
theorem exists_runs_trace (t : Tracer α) (ps : List (Primitive α)) :
    ∃ rest, (t.trace ps).runs = t.done.reverse ++ rest := by
  induction ps generalizing t with
  | nil =>
    rcases t.runs_eq with ⟨-, hruns⟩ | ⟨-, hruns⟩
    · exact ⟨_, hruns⟩
    · exact ⟨[], by rw [trace_nil, hruns, List.append_nil]⟩
  | cons p ps ih =>
    obtain ⟨rest, hrest⟩ := ih (t.step p)
    rw [trace_cons, hrest]
    -- Only a cut touches the finished runs, and it puts the run in progress behind them.
    rcases t.step_cases p with hcut | ⟨v, rfl⟩ | hsame
    · rw [done_step_of_cuts hcut]
      rcases t.runs_eq with ⟨-, hruns⟩ | ⟨-, hruns⟩
      · exact ⟨_, by rw [hruns, List.append_assoc]⟩
      · exact ⟨rest, by rw [hruns]⟩
    · exact ⟨rest, rfl⟩
    · exact ⟨rest, by rw [hsame]⟩

/-- A run that has drawn something becomes the next finished run, perhaps with more points. -/
theorem exists_runs_trace_of_two_le {t : Tracer α} (h : 2 ≤ t.run.length)
    (ps : List (Primitive α)) :
    ∃ more rest,
      (t.trace ps).runs = t.done.reverse ++ ⟨t.color, t.run.reverse ++ more⟩ :: rest := by
  induction ps generalizing t with
  | nil => exact ⟨[], [], by rw [trace_nil, runs_of_two_le h, List.append_nil]⟩
  | cons p ps ih =>
    rw [trace_cons]
    -- A cut finishes the run as it is; a segment makes it longer and leaves the rest to the
    -- induction.
    rcases t.step_cases p with hcut | ⟨v, rfl⟩ | hsame
    · obtain ⟨rest, hrest⟩ := (t.step p).exists_runs_trace ps
      refine ⟨[], rest, ?_⟩
      rw [hrest, done_step_of_cuts hcut, runs_of_two_le h, List.append_assoc, List.append_nil]
      rfl
    · obtain ⟨more, rest, hruns⟩ := ih (t := t.step (.lineTo v)) (Nat.le_succ_of_le h)
      refine ⟨v :: more, rest, ?_⟩
      rw [hruns]
      simp only [step, List.reverse_cons, List.append_assoc, List.singleton_append]
    · rw [hsame]
      exact ih h

/-- A segment that lengthens a run is joined to the last segment of the run. -/
theorem joined_of_two_le {t : Tracer α} {k : Nat} (hlong : 2 ≤ t.run.length)
    (hcount : t.drawn.length = k + 1) (v : Vec3 α) (ps : List (Primitive α)) :
    Joined ((t.step (.lineTo v)).trace ps).runs k := by
  -- Whatever follows, the longer run stays in one piece; the segments `k` and `k + 1` are its last
  -- two.
  have hlonger : 2 ≤ (t.step (.lineTo v)).run.length := Nat.le_succ_of_le hlong
  obtain ⟨more, rest, hruns⟩ := exists_runs_trace_of_two_le hlonger ps
  rw [drawn_eq, List.length_append, Polyline.length_segments, List.length_reverse] at hcount
  have hbefore : (t.done.reverse.flatMap Polyline.segments).length ≤ k := by
    omega
  refine ⟨t.done.reverse, _, rest, hruns, hbefore, ?_⟩
  rw [Polyline.length_segments, List.length_append, List.length_reverse, step, List.length_cons]
  omega

/-- A finished run has at least two points. -/
theorem two_le_of_mem_runs {t : Tracer α} (h : ∀ run ∈ t.done, 2 ≤ run.points.length) :
    ∀ run ∈ t.runs, 2 ≤ run.points.length := by
  intro run hrun
  rcases t.runs_eq with ⟨hle, hruns⟩ | ⟨-, hruns⟩
  · rw [hruns, List.mem_append, List.mem_reverse, List.mem_singleton] at hrun
    rcases hrun with hrun | rfl
    · exact h run hrun
    · rw [List.length_reverse]
      exact hle
  · rw [hruns, List.mem_reverse] at hrun
    exact h run hrun

/-- What holds of all runs that a state has found holds of the finished runs of the next state. -/
theorem forall_done_step {P : Polyline α → Prop} {t : Tracer α} {p : Primitive α}
    (h : ∀ run ∈ t.runs, P run) (hdone : ∀ run ∈ t.done, P run) :
    ∀ run ∈ (t.step p).done, P run := by
  rcases t.step_cases p with hcut | ⟨v, rfl⟩ | hsame
  · intro run hrun
    rw [← List.mem_reverse, done_step_of_cuts hcut] at hrun
    exact h run hrun
  · exact hdone
  · rw [hsame]
    exact hdone

/-- All runs that a tracer finds along a path have at least two points. -/
theorem two_le_of_mem_runs_trace {t : Tracer α} (h : ∀ run ∈ t.done, 2 ≤ run.points.length)
    (ps : List (Primitive α)) : ∀ run ∈ (t.trace ps).runs, 2 ≤ run.points.length := by
  induction ps generalizing t with
  | nil => exact two_le_of_mem_runs h
  | cons p ps ih => exact ih (forall_done_step (two_le_of_mem_runs h) h)

/-! ## The tracer and the plotter -/

section Scalar

variable [Scalar α]

/-- The run in progress ends at the pen of a plotter, in its colour. -/
structure Follows (t : Tracer α) (q : Plotter α) : Prop where
  color : t.color = q.color
  pen : t.pen = q.pen
  run : ∃ earlier, t.run = t.pen :: earlier

/-- At the start the tracer follows a plotter that was told nothing. -/
theorem follows_start : (start : Tracer α).Follows Plotter.blank :=
  ⟨rfl, rfl, [], rfl⟩

/-- Whatever the primitive is, the tracer goes on following the plotter. -/
theorem Follows.step {t : Tracer α} {q : Plotter α} (h : t.Follows q) (p : Primitive α) :
    (t.step p).Follows (q.step p) := by
  cases p with
  | moveTo v => exact ⟨t.color_flush.trans h.color, rfl, [], rfl⟩
  | lineTo v => exact ⟨h.color, rfl, t.run, rfl⟩
  | setColor c =>
    -- A colour that is announced again cuts nothing; another one begins a run at the pen.
    by_cases hc : c = t.color
    · rw [Tracer.step, if_pos hc]
      exact ⟨hc.symm, h.pen, h.run⟩
    · rw [Tracer.step, if_neg hc]
      exact ⟨rfl, t.pen_flush.trans h.pen, [], by rw [pen_flush]⟩
  | setScale a => exact ⟨h.color, h.pen, h.run⟩

/-- Only a primitive that draws adds a segment, from the pen and in the current colour. -/
theorem Follows.drawn_step {t : Tracer α} {q : Plotter α} (h : t.Follows q) (p : Primitive α) :
    (t.step p).drawn = t.drawn ++ q.segments [p] := by
  obtain ⟨earlier, hrun⟩ := h.run
  rcases t.step_cases p with hcut | ⟨v, rfl⟩ | hsame
  · -- The run that a cut begins has drawn nothing yet.
    have hnone : q.segments [p] = [] := by
      cases p with
      | lineTo v => exact hcut.elim
      | moveTo _ | setColor _ | setScale _ => rfl
    have hshort : (t.step p).run.length < 2 := by
      rw [length_run_step_of_cuts hcut]
      exact Nat.one_lt_two
    rw [hnone, List.append_nil, drawn, runs_of_lt_two hshort, done_step_of_cuts hcut, drawn]
  · have hsegment : q.segments [.lineTo v] = [⟨t.color, t.pen, v⟩] := by
      rw [h.color, h.pen]
      rfl
    have hlonger : (t.step (.lineTo v)).run.reverse = earlier.reverse ++ [t.pen, v] := by
      simp [Tracer.step, hrun]
    rw [drawn_eq, drawn_eq, hlonger, hsegment, hrun, List.reverse_cons, List.append_assoc]
    exact congrArg (_ ++ ·) (Polyline.segments_concat t.color earlier.reverse t.pen v)
  · have hline : q.segments [p] = [] := by
      cases p with
      | lineTo v =>
        have hlength : (v :: t.run).length = t.run.length :=
          congrArg (fun t : Tracer α => t.run.length) hsame
        simp at hlength
      | moveTo _ | setColor _ | setScale _ => rfl
    rw [hsame, hline, List.append_nil]

/-- A tracer follows the plotter along a path. -/
theorem Follows.trace {t : Tracer α} {q : Plotter α} (h : t.Follows q) (ps : List (Primitive α)) :
    (t.trace ps).Follows (q.replay ps) := by
  induction ps generalizing t q with
  | nil => exact h
  | cons p ps ih => exact ih (h.step p)

/-- What a tracer draws is what the plotter draws that it follows. -/
theorem Follows.drawn_trace {t : Tracer α} {q : Plotter α} (h : t.Follows q)
    (ps : List (Primitive α)) : (t.trace ps).drawn = t.drawn ++ q.segments ps := by
  induction ps generalizing t q with
  | nil => exact (List.append_nil _).symm
  | cons p ps ih =>
    rw [trace_cons, ih (h.step p), h.drawn_step p, List.append_assoc]
    exact congrArg (_ ++ ·) (q.segments_append [p] ps).symm

/-- Between two cuts nothing but segments changes the state. -/
theorem Follows.trace_of_not_cuts {t : Tracer α} {q : Plotter α} (h : t.Follows q)
    {ps : List (Primitive α)} (hline : ∀ p ∈ ps, p.isLine = false)
    (hcuts : ∀ before p after, ps = before ++ p :: after → ¬ p.Cuts (q.replay before).color) :
    t.trace ps = t := by
  induction ps generalizing q with
  | nil => rfl
  | cons p ps ih =>
    have hfirst : ¬ p.Cuts t.color := by
      rw [h.color]
      exact hcuts [] p ps rfl
    have hsame : t.step p = t := step_of_not_cuts hfirst (hline p List.mem_cons_self)
    have hnext := h.step p
    rw [hsame] at hnext
    rw [trace_cons, hsame]
    refine ih hnext (fun p' hp' => hline p' (List.mem_cons_of_mem p hp')) ?_
    intro before p' after heq
    exact hcuts (p :: before) p' after (by rw [heq, List.cons_append])

end Scalar

/-! ## Where the points come from -/

/-- All points that a tracer knows are among the given ones. -/
structure Within (t : Tracer α) (points : List (Vec3 α)) : Prop where
  pen : t.pen ∈ points
  run : ∀ v ∈ t.run, v ∈ points
  runs : ∀ run ∈ t.done, ∀ v ∈ run.points, v ∈ points

/-- The runs that are given out have no other points. -/
theorem Within.mem_runs {t : Tracer α} {points : List (Vec3 α)} (h : t.Within points) :
    ∀ run ∈ t.runs, ∀ v ∈ run.points, v ∈ points := by
  intro run hrun
  rcases t.runs_eq with ⟨-, hruns⟩ | ⟨-, hruns⟩
  · rw [hruns, List.mem_append, List.mem_reverse, List.mem_singleton] at hrun
    rcases hrun with hrun | rfl
    · exact h.runs run hrun
    · exact fun v hv => h.run v (List.mem_reverse.1 hv)
  · rw [hruns, List.mem_reverse] at hrun
    exact h.runs run hrun

/-- A primitive adds no other point than the one to which it leads. -/
theorem Within.step {t : Tracer α} {points : List (Vec3 α)} (h : t.Within points)
    {p : Primitive α} (hp : ∀ v, p.point? = some v → v ∈ points) : (t.step p).Within points := by
  have hdone := forall_done_step (p := p) h.mem_runs h.runs
  cases p with
  | moveTo v =>
    have hv : v ∈ points := hp v rfl
    exact ⟨hv, fun u hu => List.mem_singleton.1 hu ▸ hv, hdone⟩
  | lineTo v =>
    have hv : v ∈ points := hp v rfl
    refine ⟨hv, fun u hu => ?_, hdone⟩
    rcases List.mem_cons.1 hu with rfl | hu
    · exact hv
    · exact h.run u hu
  | setColor c =>
    by_cases hc : c = t.color
    · rw [Tracer.step, if_pos hc]
      exact h
    · rw [Tracer.step, if_neg hc] at hdone ⊢
      exact ⟨by rw [pen_flush]; exact h.pen, fun u hu => List.mem_singleton.1 hu ▸ h.pen, hdone⟩
  | setScale a => exact h

/-- A path adds no other points than its pen positions. -/
theorem Within.trace {t : Tracer α} {points : List (Vec3 α)} (h : t.Within points)
    {ps : List (Primitive α)} (hps : ∀ v ∈ ps.filterMap Primitive.point?, v ∈ points) :
    (t.trace ps).Within points := by
  induction ps generalizing t with
  | nil => exact h
  | cons p ps ih =>
    have hfirst : ∀ v, p.point? = some v → v ∈ points := fun v hv =>
      hps v (List.mem_filterMap.2 ⟨p, List.mem_cons_self, hv⟩)
    refine ih (h.step hfirst) fun v hv => hps v ?_
    obtain ⟨q, hq, hqv⟩ := List.mem_filterMap.1 hv
    exact List.mem_filterMap.2 ⟨q, List.mem_cons_of_mem p hq, hqv⟩

/-- As long as the pen is not led anywhere nothing is drawn, whatever colours are announced. -/
theorem runs_trace_of_point?_eq_none {t : Tracer α} (h : t.run.length < 2)
    {ps : List (Primitive α)} (hps : ∀ p ∈ ps, p.point? = none) :
    (t.trace ps).runs = t.runs := by
  induction ps generalizing t with
  | nil => rfl
  | cons p ps ih =>
    have hrest : ∀ q ∈ ps, q.point? = none := fun q hq => hps q (List.mem_cons_of_mem p hq)
    rw [trace_cons]
    rcases t.step_cases p with hcut | ⟨v, rfl⟩ | hsame
    · have hshort : (t.step p).run.length < 2 := by
        rw [length_run_step_of_cuts hcut]
        exact Nat.one_lt_two
      rw [ih hshort hrest, runs_of_lt_two hshort, done_step_of_cuts hcut]
    · cases hps _ List.mem_cons_self
    · rw [hsame, ih h hrest]

end Tracer

/-! ## The polylines of a path -/

section Scalar

variable [Scalar α]

/-- The first primitive of a path that leads the pen anywhere is a move. -/
def Drawing.BeginsWithMove (path : Drawing α) : Prop :=
  ∃ v, path.toList.find? (fun p => p.point?.isSome) = some (.moveTo v)

/-- The polylines of a path are the runs of a tracer that has followed it. -/
theorem Drawing.polylines_eq (path : Drawing α) :
    path.polylines = (Tracer.start.trace path.toList).runs := rfl

/-- One segment for each primitive that draws. -/
theorem Plotter.length_segments (q : Plotter α) (ps : List (Primitive α)) :
    (q.segments ps).length = ps.countP Primitive.isLine := by
  induction ps generalizing q with
  | nil => rfl
  | cons p ps ih =>
    rw [List.countP_cons]
    cases p with
    | lineTo v => exact congrArg Nat.succ (ih _)
    | moveTo _ | setColor _ | setScale _ => exact ih _

/-- A tracer that was started has drawn what a plotter draws. -/
theorem Tracer.drawn_start_trace (ps : List (Primitive α)) :
    (start.trace ps).drawn = Plotter.blank.segments ps := by
  have hstart : (start : Tracer α).drawn = [] := rfl
  rw [follows_start.drawn_trace, hstart, List.nil_append]

/-- A tracer that was started has drawn one segment for each primitive that draws. -/
theorem Tracer.length_drawn_start_trace (ps : List (Primitive α)) :
    (start.trace ps).drawn.length = ps.countP Primitive.isLine := by
  rw [drawn_start_trace, Plotter.length_segments]

/-- Laid end to end the polylines are the segments of the path. -/
theorem Drawing.flatMap_polylines (path : Drawing α) :
    path.polylines.flatMap Polyline.segments = path.segments :=
  Tracer.drawn_start_trace path.toList

/-- The polylines have together as many segments as the path has primitives that draw. -/
theorem Drawing.sum_polylines (path : Drawing α) :
    (path.polylines.map fun run => run.points.length - 1).sum = path.lineCount := by
  have hlength := congrArg List.length path.flatMap_polylines
  rw [List.length_flatMap, Drawing.segments, Plotter.length_segments] at hlength
  rw [Drawing.lineCount, ← hlength]
  simp only [Polyline.length_segments]

/-- Every polyline has at least two points. -/
theorem Drawing.two_le_of_mem_polylines (path : Drawing α) :
    ∀ run ∈ path.polylines, 2 ≤ run.points.length := by
  apply Tracer.two_le_of_mem_runs_trace
  intro run hrun
  cases hrun

/-- A cut behind the segment with the number `k` separates it from the next one. -/
theorem Tracer.not_joined_of_cuts {before after : List (Primitive α)} {p : Primitive α} {k : Nat}
    (hcount : before.countP Primitive.isLine = k + 1)
    (hcut : p.Cuts (Plotter.blank.replay before).color) :
    ¬ Joined (start.trace (before ++ p :: after)).runs k := by
  rw [← (follows_start.trace before).color] at hcut
  -- The cut finishes what was drawn before it, and that stays in front of all that follows.
  obtain ⟨rest, hruns⟩ := ((start.trace before).step p).exists_runs_trace after
  rw [trace_append, trace_cons, hruns, done_step_of_cuts hcut]
  refine not_joined_of_append ?_
  rw [← hcount]
  exact length_drawn_start_trace before

/-- Without a cut behind a segment, the next one is joined to it. -/
theorem Tracer.joined_of_not_cuts {before between after : List (Primitive α)} {p q : Vec3 α}
    (hline : ∀ x ∈ between, x.isLine = false)
    (hcuts : ∀ a x b, between = a ++ x :: b →
      ¬ x.Cuts (Plotter.blank.replay (before ++ .lineTo p :: a)).color) :
    Joined (start.trace (before ++ .lineTo p :: (between ++ .lineTo q :: after))).runs
      (before.countP Primitive.isLine) := by
  have hlong : 2 ≤ (start.trace (before ++ [.lineTo p])).run.length := by
    obtain ⟨earlier, hrun⟩ := ((follows_start (α := α)).trace before).run
    rw [trace_append, trace_cons, trace_nil, step, hrun]
    exact Nat.le_add_left 2 earlier.length
  have hcount : (start.trace (before ++ [.lineTo p])).drawn.length =
      before.countP Primitive.isLine + 1 := by
    rw [length_drawn_start_trace, List.countP_append]
    rfl
  -- The tracer is in the same state when the second segment comes.
  have hsame : (start.trace (before ++ [.lineTo p])).trace between =
      start.trace (before ++ [.lineTo p]) := by
    refine (follows_start.trace _).trace_of_not_cuts hline fun a x b heq => ?_
    have hcut := hcuts a x b heq
    rwa [← Plotter.replay_append, List.append_assoc]
  rw [List.append_cons, trace_append, trace_append, hsame, trace_cons]
  exact joined_of_two_le hlong hcount q after

/-- Two successive segments are in one polyline exactly if nothing between them cuts. -/
theorem Drawing.joined_polylines_iff {path : Drawing α} {before between after : List (Primitive α)}
    {p q : Vec3 α}
    (heq : path.toList = before ++ .lineTo p :: (between ++ .lineTo q :: after))
    (hline : ∀ x ∈ between, x.isLine = false) :
    Joined path.polylines (before.countP Primitive.isLine) ↔
      ∀ a x b, between = a ++ x :: b →
        ¬ x.Cuts (Plotter.blank.replay (before ++ .lineTo p :: a)).color := by
  rw [path.polylines_eq, heq]
  constructor
  · rintro hjoined a x b rfl hcut
    have hnone : a.countP Primitive.isLine = 0 := by
      apply List.countP_eq_zero.2
      intro y hy
      rw [hline y (List.mem_append_left _ hy)]
      exact Bool.false_ne_true
    have hcount : (before ++ .lineTo p :: a).countP Primitive.isLine =
        before.countP Primitive.isLine + 1 := by
      rw [List.countP_append, List.countP_cons, hnone]
      rfl
    have hsplit : before ++ .lineTo p :: (a ++ x :: b ++ .lineTo q :: after) =
        (before ++ .lineTo p :: a) ++ x :: (b ++ .lineTo q :: after) := by
      simp only [List.append_assoc, List.cons_append]
    rw [hsplit] at hjoined
    exact Tracer.not_joined_of_cuts hcount hcut hjoined
  · exact Tracer.joined_of_not_cuts hline

/-- Polylines have no points of their own, unless the path draws from the origin without having been
there. -/
theorem Drawing.mem_points_of_beginsWithMove {path : Drawing α} (h : path.BeginsWithMove) :
    ∀ run ∈ path.polylines, ∀ v ∈ run.points, v ∈ path.points := by
  obtain ⟨v, hfind⟩ := h
  obtain ⟨-, before, after, heq, hbefore⟩ := List.find?_eq_some_iff_append.1 hfind
  have hnowhere : ∀ p ∈ before, p.point? = none := by
    intro p hp
    simpa using hbefore p hp
  have hidle : (Tracer.start.trace before).runs = (Tracer.start : Tracer α).runs := by
    have hshort : (Tracer.start : Tracer α).run.length < 2 := Nat.one_lt_two
    exact Tracer.runs_trace_of_point?_eq_none hshort hnowhere
  have hpoints : path.points = v :: after.filterMap Primitive.point? := by
    rw [points, heq, List.filterMap_append, List.filterMap_eq_nil_iff.2 hnowhere, List.nil_append]
    rfl
  have hdone : ((Tracer.start.trace before).step (.moveTo v)).done = [] := by
    have hcut : (Primitive.moveTo v).Cuts (Tracer.start.trace before).color := trivial
    rw [← List.reverse_eq_nil_iff, Tracer.done_step_of_cuts hcut, hidle]
    rfl
  have hmove : ((Tracer.start.trace before).step (.moveTo v)).Within path.points := by
    have hv : v ∈ path.points := by
      rw [hpoints]
      exact List.mem_cons_self
    refine ⟨hv, fun u hu => List.mem_singleton.1 hu ▸ hv, fun run hrun => ?_⟩
    rw [hdone] at hrun
    cases hrun
  rw [polylines_eq, heq, Tracer.trace_append, Tracer.trace_cons]
  refine (hmove.trace fun u hu => ?_).mem_runs
  rw [hpoints]
  exact List.mem_cons_of_mem v hu

/-- A path that comes with an answer begins with the move to the origin. -/
theorem Drawing.beginsWithMove_of_drawnPath {interpreter : Interpreter α}
    {motion : TurtleMotion α} {w : Word} {path : Drawing α}
    (h : drawnPath? (interpreter.interpret w motion) = some path) : path.BeginsWithMove := by
  obtain ⟨n, walk, hwalk, rfl⟩ := Interpreter.exists_walk_of_drawnPath h
  obtain ⟨ps, -, hpath⟩ := Interpreter.walk_eq_ok_iff.1 hwalk
  exact ⟨Vec3.origin, by rw [hpath]; rfl⟩

/-- The polylines of a path have at least two points each, and laid end to end they are the segments
that a plotter draws along the path, in order and each in its colour; so there are as many as the
path has primitives that draw. Two successive segments, of which the first has as many before it as
there are primitives that draw, are in one polyline exactly if nothing between them cuts, neither a
move nor another colour than the current one. If a path leads the pen first by a move, as the path
of every answer does, the points of the polylines are points of the path. -/
theorem polylines_draw_segments (path : Drawing α) :
    (∀ run ∈ path.polylines, 2 ≤ run.points.length) ∧
    path.polylines.flatMap Polyline.segments = path.segments ∧
    (path.polylines.map fun run => run.points.length - 1).sum = path.lineCount ∧
    (∀ before p between q after,
      path.toList = before ++ .lineTo p :: (between ++ .lineTo q :: after) →
      (∀ x ∈ between, x.isLine = false) →
      (Joined path.polylines (before.countP Primitive.isLine) ↔
        ∀ a x b, between = a ++ x :: b →
          ¬ x.Cuts (Plotter.blank.replay (before ++ .lineTo p :: a)).color)) ∧
    (path.BeginsWithMove → ∀ run ∈ path.polylines, ∀ v ∈ run.points, v ∈ path.points) ∧
    ∀ (interpreter : Interpreter α) (motion : TurtleMotion α) (w : Word),
      drawnPath? (interpreter.interpret w motion) = some path → path.BeginsWithMove := by
  refine ⟨path.two_le_of_mem_polylines, path.flatMap_polylines, path.sum_polylines, ?_,
    Drawing.mem_points_of_beginsWithMove, fun _ _ _ => Drawing.beginsWithMove_of_drawnPath⟩
  intro before p between q after heq hline
  exact Drawing.joined_polylines_iff heq hline

/-- The announcement of the current colour does not cut; a path that begins with a segment draws it
from the origin. -/
example (a b c d : Vec3 Float) :
    Drawing.polylines ⟨#[.lineTo a, .setColor 0, .lineTo b, .setColor 2, .moveTo c, .lineTo d,
      .setColor 1]⟩ = [⟨0, [Vec3.origin, a, b]⟩, ⟨2, [c, d]⟩] := by
  rfl

end Scalar

end TurtleCurves
