import CuedProse.Proofs.Visible.Select

/-!
# The stretches between the markup

The stretches of a text are the complement of the spans that its markup covers. `Fill` says so while
a list of them is being built; here it is taken apart into what can be said about all stretches, and
about two of them.

* `Fill.apart`: an offset that is not free stands between two stretches, so they cannot be joined.
* `Fill.holds_free`, `Fill.start_covered`: nor can one of them be made longer.
* `Fill.countP_holds`: a free offset lies in one stretch, any other one in none.
* `Fill.before_eq`: a stretch knows how many free offsets are in front of it.
* `stretches_complement`: all this of the projection of a text, whatever the spans.
-/
namespace CuedProse

def Stretch.Holds (s : Stretch) (r : Nat) : Prop := s.start ≤ r ∧ r < s.stop

instance (s : Stretch) (r : Nat) : Decidable (s.Holds r) :=
  inferInstanceAs (Decidable (s.start ≤ r ∧ r < s.stop))

namespace Projection

namespace Fill

variable {free : Nat → Bool} {total cursor before : Nat} {l : List Stretch}

theorem start_bounds (h : Fill free total cursor before l) {s : Stretch} (hs : s ∈ l) :
    cursor ≤ s.start ∧ s.start < s.stop := by
  induction l generalizing cursor before with
  | nil => cases hs
  | cons t l ih =>
    obtain ⟨⟨hcursor, hlt, -, -⟩, -, -, -, hrest⟩ := h
    rcases List.mem_cons.mp hs with heq | hs
    · rw [heq]
      exact ⟨hcursor, hlt⟩
    · obtain ⟨hle, hne⟩ := ih hrest hs
      exact ⟨by omega, hne⟩

/-- The offsets of a stretch are free, and behind it is none, or the end of the text. -/
theorem holds_free (h : Fill free total cursor before l) {s : Stretch} (hs : s ∈ l) :
    (∀ o, s.Holds o → free o = true) ∧ (s.stop < total → free s.stop = false) := by
  induction l generalizing cursor before with
  | nil => cases hs
  | cons t l ih =>
    obtain ⟨-, -, hfree, hend, hrest⟩ := h
    rcases List.mem_cons.mp hs with heq | hs
    · rw [heq]
      exact ⟨fun o ho => hfree o ho.1 ho.2, hend⟩
    · exact ih hrest hs

theorem apart (h : Fill free total cursor before l) :
    l.Pairwise fun s t => free s.stop = false ∧ s.stop < t.start := by
  induction l generalizing cursor before with
  | nil => exact .nil
  | cons s l ih =>
    have hend := (h.holds_free (List.mem_cons_self ..)).2
    have hrest : Fill free total s.stop (before + s.length) l := h.2.2.2.2
    refine .cons (fun t ht => ?_) (ih hrest)
    obtain ⟨hle, hlt⟩ := hrest.start_bounds ht
    have hstop := hrest.stop_le ht
    have hcovered : free s.stop = false := hend (by omega)
    have hfree : free t.start = true := (hrest.holds_free ht).1 t.start ⟨Nat.le_refl _, hlt⟩
    have hne : s.stop ≠ t.start := by
      intro heq
      rw [heq, hfree] at hcovered
      cases hcovered
    exact ⟨hcovered, by omega⟩

theorem start_covered (h : Fill free total cursor before l) {s : Stretch} (hs : s ∈ l)
    (hstart : cursor < s.start) : free (s.start - 1) = false := by
  have hapart := h.apart
  induction l generalizing cursor before with
  | nil => cases hs
  | cons t l ih =>
    obtain ⟨-, hcovered, -, -, hrest⟩ := h
    rcases List.mem_cons.mp hs with heq | hs
    · rw [heq] at hstart ⊢
      exact hcovered _ (by omega) (by omega)
    · obtain ⟨hfirst, hothers⟩ := List.pairwise_cons.mp hapart
      exact ih hrest hs (hfirst s hs).2 hothers

/-- A free offset lies in one stretch, any other one in none. -/
theorem countP_holds (h : Fill free total cursor before l) {r : Nat} (hr : cursor ≤ r)
    (hrt : r < total) : l.countP (fun s => s.Holds r) = if free r then 1 else 0 := by
  induction l generalizing cursor before with
  | nil => simp [h r hr hrt]
  | cons s l ih =>
    obtain ⟨-, hcovered, hfree, -, hrest⟩ := h
    by_cases hstop : s.stop ≤ r
    · have hnot : ¬ s.Holds r := fun hs => Nat.not_le.mpr hs.2 hstop
      rw [List.countP_cons_of_neg (by simpa using hnot), ih hrest hstop]
    · -- the stretches behind this one begin behind `r`
      have hnone : l.countP (fun s => s.Holds r) = 0 := by
        rw [List.countP_eq_zero]
        intro t ht hholds
        have hle := (of_decide_eq_true hholds).1
        have := (hrest.start_bounds ht).1
        omega
      by_cases hstart : s.start ≤ r
      · have hholds : s.Holds r := ⟨hstart, Nat.lt_of_not_le hstop⟩
        rw [List.countP_cons_of_pos (by simpa using hholds), hnone, hfree r hstart hholds.2,
          if_pos rfl]
      · have hnot : ¬ s.Holds r := fun hs => hstart hs.1
        rw [List.countP_cons_of_neg (by simpa using hnot), hnone,
          hcovered r hr (Nat.lt_of_not_le hstart), if_neg (by decide)]

theorem before_eq (h : Fill free total cursor before l) (hb : before = count free cursor)
    {s : Stretch} (hs : s ∈ l) : s.before = count free s.start := by
  induction l generalizing cursor before with
  | nil => cases hs
  | cons t l ih =>
    obtain ⟨⟨hcursor, hlt, -, hbefore⟩, hcovered, hfree, -, hrest⟩ := h
    have hstart := count_of_covered free hcursor hcovered
    rcases List.mem_cons.mp hs with heq | hs
    · rw [heq, hbefore, hb, hstart]
    · have hstop := count_of_free free (Nat.le_of_lt hlt) hfree
      exact ih hrest (by rw [hstop, hstart, ← hb]; rfl) hs

end Fill

/-! ## The projection of a text -/

section
variable (total : Nat) (spans : List Span)

/-- A text has one empty stretch at its end if all of it is covered, and else those that the spans
leave free. -/
theorem stretches_cases :
    ((∀ r < total, ∃ s ∈ spans, s.Covers r) ∧
        (ofSpans total spans).stretches = [⟨total, total, 0⟩]) ∨
      (¬ ∀ r < total, ∃ s ∈ spans, s.Covers r) ∧
        Fill (Span.isFree spans) total 0 0 (ofSpans total spans).stretches := by
  have hfill := fill_ofSpans total spans
  by_cases hnone : gaps total 0 0 (Span.union (spans.map (Span.clamp total))) = []
  · left
    rw [hnone] at hfill
    refine ⟨fun r hr => Span.isFree_eq_false.mp (hfill r (Nat.zero_le r) hr), ?_⟩
    simp only [ofSpans, if_pos hnone]
  · right
    have hstretches : (ofSpans total spans).stretches =
        gaps total 0 0 (Span.union (spans.map (Span.clamp total))) := by
      simp only [ofSpans, if_neg hnone]
    rw [hstretches]
    refine ⟨fun hall => ?_, hfill⟩
    obtain ⟨s, hs⟩ := List.exists_mem_of_ne_nil _ hnone
    have hlt := (hfill.start_bounds hs).2
    have hfree := (hfill.holds_free hs).1 s.start ⟨Nat.le_refl _, hlt⟩
    have hstop := hfill.stop_le hs
    exact Span.isFree_eq_true.mp hfree (hall s.start (by omega))

theorem totalVisible_add_covered :
    (ofSpans total spans).totalVisible +
      (List.range total).countP (fun r => ∃ s ∈ spans, s.Covers r) = total := by
  have hall := List.length_eq_countP_add_countP (Span.isFree spans) (l := List.range total)
  rw [List.length_range] at hall
  rw [totalVisible_ofSpans, Span.freeBelow]
  refine Eq.trans ?_ hall.symm
  congr 1
  refine List.countP_congr fun r _ => ?_
  simp only [decide_eq_true_eq, Span.isFree_eq_true, Decidable.not_not]

/-- **The stretches are the complement of the spans.** They come in order, with a covered offset
between any two of them; none can be made longer, and each has as many uncovered offsets before it
as it says. An offset of the text lies in one of them if no span covers it, and in none if one does.
Together they are as long as the text without what is covered. None of them is empty, unless all of
the text is covered: then there is just an empty one at its end. -/
theorem stretches_complement (total : Nat) (spans : List Span) :
    let p := ofSpans total spans
    p.stretches.Pairwise
        (fun s t => ∃ o, s.stop ≤ o ∧ o < t.start ∧ ∃ span ∈ spans, span.Covers o) ∧
      (∀ s ∈ p.stretches, s.stop ≤ total ∧ s.before = Span.freeBelow spans s.start ∧
        (s.stop < total → ∃ span ∈ spans, span.Covers s.stop) ∧
        (0 < s.start → ∃ span ∈ spans, span.Covers (s.start - 1))) ∧
      (∀ r < total,
        p.stretches.countP (fun s => s.Holds r) =
            (if ∃ span ∈ spans, span.Covers r then 0 else 1) ∧
          (p.isVisible r = true ↔ ¬ ∃ span ∈ spans, span.Covers r)) ∧
      p.totalVisible = visibleLength p.stretches ∧
      p.totalVisible + (List.range total).countP (fun r => ∃ span ∈ spans, span.Covers r) =
        total ∧
      (if ∀ r < total, ∃ span ∈ spans, span.Covers r then p.stretches = [⟨total, total, 0⟩]
        else ∀ s ∈ p.stretches, s.start < s.stop) := by
  intro p
  have hvisible : ∀ r < total, (p.isVisible r = true ↔ ¬ ∃ span ∈ spans, span.Covers r) := by
    intro r hr
    rw [isVisible_ofSpans total spans hr, Span.isFree_eq_true]
  have hsum := totalVisible_add_covered total spans
  obtain ⟨hall, hstretches⟩ | ⟨hsome, hfill⟩ := stretches_cases total spans
  · have hcount : Span.freeBelow spans total = 0 :=
      count_of_covered _ (Nat.zero_le total) fun r _ hr => Span.isFree_eq_false.mpr (hall r hr)
    have htotal := totalVisible_ofSpans total spans
    rw [hcount] at htotal
    refine ⟨?_, ?_, fun r hr => ⟨?_, hvisible r hr⟩, ?_, hsum, ?_⟩
    · rw [hstretches]
      exact List.pairwise_singleton ..
    · rw [hstretches]
      intro s hs
      rw [List.mem_singleton.mp hs]
      exact ⟨Nat.le_refl _, hcount.symm, fun h => absurd h (Nat.lt_irrefl _),
        fun h => hall _ (Nat.sub_lt h Nat.one_pos)⟩
    · rw [hstretches, if_pos (hall r hr)]
      simp [Stretch.Holds, Nat.not_le.mpr hr]
    · rw [htotal, hstretches]
      simp [visibleLength, Stretch.length]
    · rw [if_pos hall]
      exact hstretches
  · refine ⟨?_, fun s hs => ⟨hfill.stop_le hs, hfill.before_eq rfl hs, ?_, ?_⟩,
      fun r hr => ⟨?_, hvisible r hr⟩, ?_, hsum, ?_⟩
    · exact hfill.apart.imp fun {s t} hst =>
        ⟨s.stop, Nat.le_refl _, hst.2, Span.isFree_eq_false.mp hst.1⟩
    · exact fun hstop => Span.isFree_eq_false.mp ((hfill.holds_free hs).2 hstop)
    · exact fun hstart => Span.isFree_eq_false.mp (hfill.start_covered hs hstart)
    · rw [hfill.countP_holds (Nat.zero_le r) hr]
      by_cases hr : ∃ span ∈ spans, span.Covers r
      · rw [if_pos hr, Span.isFree_eq_false.mpr hr, if_neg (by decide)]
      · rw [if_neg hr, Span.isFree_eq_true.mpr hr, if_pos rfl]
    · have hlength := visibleLength_of_fill hfill (Nat.zero_le total) rfl
      rw [Nat.zero_add] at hlength
      rw [hlength]
      exact totalVisible_ofSpans total spans
    · rw [if_neg hsome]
      exact fun s hs => (hfill.start_bounds hs).2

end

/-- Spans out of order, one inside the other, side by side, empty, reversed and past the end leave
two stretches; the second one holds the offset between two spans that nearly meet. -/
theorem stretches_complement_of_tangled :
    let spans : List Span := [⟨7, 9⟩, ⟨2, 4⟩, ⟨2, 5⟩, ⟨5, 6⟩, ⟨8, 20⟩, ⟨1, 1⟩, ⟨6, 0⟩]
    let p := ofSpans 10 spans
    p.stretches = [⟨0, 2, 0⟩, ⟨6, 7, 2⟩] ∧ 6 < 10 ∧
      p.stretches.countP (fun s => s.Holds 6) =
        (if ∃ span ∈ spans, span.Covers 6 then 0 else 1) ∧
      (p.isVisible 6 = true ↔ ¬ ∃ span ∈ spans, span.Covers 6) := by
  intro spans p
  exact ⟨by decide, by decide, (stretches_complement 10 spans).2.2.1 6 (by decide)⟩

end Projection

end CuedProse
