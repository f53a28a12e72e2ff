import CuedProse.Proofs.Visible.Union

/-!
# One form for what spans cover

Many lists of spans cover the same offsets, but only one of them is separated.

* `Separated.eq_of_covers`: separated spans are determined by what they cover.
* `union_eq_iff`: so two lists of spans have the same union just if they cover the same.
* `union_canonical`: the union is this one form, whatever the spans.
-/
namespace CuedProse.Span

namespace Separated

variable {s t : Span} {l m : List Span} {r : Nat}

theorem tail (h : Separated (s :: l)) : Separated l :=
  ⟨fun u hu => h.start_lt u (List.mem_cons_of_mem _ hu), (List.pairwise_cons.mp h.apart).2⟩

theorem covers_start (h : Separated (s :: l)) : ∃ u ∈ s :: l, u.Covers s.start :=
  ⟨s, List.mem_cons_self .., Nat.le_refl _, h.start_lt s (List.mem_cons_self ..)⟩

theorem covers_tail_iff (h : Separated (s :: l)) :
    (∃ u ∈ l, u.Covers r) ↔ s.stop < r ∧ ∃ u ∈ s :: l, u.Covers r := by
  constructor
  · intro hin
    obtain ⟨u, hu, hr⟩ := hin
    have hgap : s.stop < u.start := (List.pairwise_cons.mp h.apart).1 u hu
    exact ⟨Nat.lt_of_lt_of_le hgap hr.1, u, List.mem_cons_of_mem _ hu, hr⟩
  · intro hin
    obtain ⟨hr, u, hu, hcovers⟩ := hin
    rcases List.mem_cons.mp hu with heq | hu
    · rw [heq] at hcovers
      exact absurd hcovers.2 (Nat.not_lt.mpr (Nat.le_of_lt hr))
    · exact ⟨u, hu, hcovers⟩

theorem start_le (h : Separated (s :: l)) (hr : ∃ u ∈ s :: l, u.Covers r) : s.start ≤ r := by
  by_cases hbehind : s.stop < r
  · have := h.start_lt s (List.mem_cons_self ..)
    omega
  · obtain ⟨u, hu, hcovers⟩ := hr
    rcases List.mem_cons.mp hu with heq | hu
    · rw [heq] at hcovers
      exact hcovers.1
    · exact absurd (h.covers_tail_iff.mp ⟨u, hu, hcovers⟩).1 hbehind

theorem stop_not_covered (h : Separated (s :: l)) : ¬ ∃ u ∈ s :: l, u.Covers s.stop := by
  intro hin
  obtain ⟨u, hu, hcovers⟩ := hin
  rcases List.mem_cons.mp hu with heq | hu
  · rw [heq] at hcovers
    exact Nat.lt_irrefl _ hcovers.2
  · exact Nat.lt_irrefl _ (h.covers_tail_iff.mp ⟨u, hu, hcovers⟩).1

/-- If all that one list covers is covered by another one, the first span of the other one starts no
later; and if both start together, it ends no earlier. -/
theorem first_covers_first (hs : Separated (s :: l)) (ht : Separated (t :: m))
    (h : ∀ r, (∃ u ∈ s :: l, u.Covers r) → ∃ u ∈ t :: m, u.Covers r) :
    t.start ≤ s.start ∧ (s.start = t.start → s.stop ≤ t.stop) := by
  refine ⟨ht.start_le (h _ hs.covers_start), fun hstart => Nat.le_of_not_lt fun hstop => ?_⟩
  have hlt : t.start < t.stop := ht.start_lt t (List.mem_cons_self ..)
  have hcovers : s.Covers t.stop := ⟨by omega, hstop⟩
  exact ht.stop_not_covered (h _ ⟨s, List.mem_cons_self .., hcovers⟩)

/-- Separated spans are determined by what they cover. -/
theorem eq_of_covers (hl : Separated l) (hm : Separated m)
    (h : ∀ r, (∃ u ∈ l, u.Covers r) ↔ ∃ u ∈ m, u.Covers r) : l = m := by
  induction l generalizing m with
  | nil =>
    cases m with
    | nil => rfl
    | cons t m =>
      obtain ⟨u, hu, -⟩ := (h t.start).mpr hm.covers_start
      cases hu
  | cons s l ih =>
    cases m with
    | nil =>
      obtain ⟨u, hu, -⟩ := (h s.start).mp hl.covers_start
      cases hu
    | cons t m =>
      obtain ⟨hts, hst⟩ := first_covers_first hl hm fun r => (h r).mp
      obtain ⟨hst', hts'⟩ := first_covers_first hm hl fun r => (h r).mpr
      have hstart : s.start = t.start := Nat.le_antisymm hst' hts
      have hstop : s.stop = t.stop := Nat.le_antisymm (hst hstart) (hts' hstart.symm)
      have hfirst : s = t := by rw [Span.mk.injEq]; exact ⟨hstart, hstop⟩
      -- behind the first span both cover the same
      have hrest : l = m := ih hl.tail hm.tail fun r => by
        rw [hl.covers_tail_iff, hm.covers_tail_iff, h r, hstop]
      rw [hfirst, hrest]

end Separated

/-- Two lists of spans have the same union just if they cover the same. -/
theorem union_eq_iff {spans others : List Span} :
    union others = union spans ↔
      ∀ r, (∃ s ∈ others, s.Covers r) ↔ ∃ s ∈ spans, s.Covers r := by
  constructor
  · intro h r
    rw [← union_covers others r, h, union_covers spans r]
  · intro h
    refine (union_separated others).eq_of_covers (union_separated spans) fun r => ?_
    rw [union_covers, union_covers, h r]

/-- **The union is the one form of what spans cover.** Its spans are not empty, come in order, and
each ends in front of where the next one starts; they cover just the offsets that some of the given
spans covers. No other list of spans does both. So the union says what is covered and nothing else:
it does not matter in what order the spans come and how often, and the union of the union is the
union again. -/
theorem union_canonical (spans : List Span) :
    Separated (union spans) ∧
      (∀ r, (∃ s ∈ union spans, s.Covers r) ↔ ∃ s ∈ spans, s.Covers r) ∧
      (∀ form, Separated form →
        (∀ r, (∃ s ∈ form, s.Covers r) ↔ ∃ s ∈ spans, s.Covers r) → form = union spans) ∧
      (∀ others, union others = union spans ↔
        ∀ r, (∃ s ∈ others, s.Covers r) ↔ ∃ s ∈ spans, s.Covers r) ∧
      (∀ others, others.Perm spans → union others = union spans) ∧
      (∀ others, (∀ s, s ∈ others ↔ s ∈ spans) → union others = union spans) ∧
      union (union spans) = union spans := by
  have hsame : ∀ others, (∀ s, s ∈ others ↔ s ∈ spans) → union others = union spans := by
    intro others h
    refine union_eq_iff.mpr fun r => ?_
    simp only [h]
  refine ⟨union_separated spans, union_covers spans, fun form hform hcovers => ?_,
    fun others => union_eq_iff, fun others hperm => hsame others fun s => hperm.mem_iff, hsame, ?_⟩
  · refine hform.eq_of_covers (union_separated spans) fun r => ?_
    rw [hcovers r, union_covers]
  · exact union_eq_iff.mpr (union_covers spans)

/-- Spans out of order, one inside the other, side by side, empty and reversed, and the same ones in
another order with two of them twice: both times two spans are left. -/
theorem union_canonical_of_tangled :
    let spans : List Span := [⟨7, 9⟩, ⟨2, 4⟩, ⟨2, 5⟩, ⟨5, 6⟩, ⟨8, 20⟩, ⟨1, 1⟩, ⟨6, 0⟩]
    let moved : List Span := [⟨6, 0⟩, ⟨8, 20⟩, ⟨2, 4⟩, ⟨2, 5⟩, ⟨7, 9⟩, ⟨1, 1⟩, ⟨5, 6⟩]
    let others : List Span := ⟨2, 5⟩ :: ⟨6, 0⟩ :: moved
    union spans = [⟨2, 6⟩, ⟨7, 20⟩] ∧ moved.Perm spans ∧ union moved = union spans ∧
      (∀ s, s ∈ others ↔ s ∈ spans) ∧ union others = union spans ∧
      [⟨2, 6⟩, ⟨7, 20⟩] = union spans := by
  intro spans moved others
  have hunion : union spans = [⟨2, 6⟩, ⟨7, 20⟩] := by decide
  have hperm : moved.Perm spans := by decide
  have hothers : ∀ s ∈ others, s ∈ spans := by decide
  have hspans : ∀ s ∈ spans, s ∈ others := by decide
  have hmem : ∀ s, s ∈ others ↔ s ∈ spans := fun s => ⟨hothers s, hspans s⟩
  obtain ⟨hseparated, hcovers, hform, -, hmoved, hsame, -⟩ := union_canonical spans
  refine ⟨hunion, hperm, hmoved moved hperm, hmem, hsame others hmem, hform _ ?_ ?_⟩
  · rwa [hunion] at hseparated
  · rwa [hunion] at hcovers

end CuedProse.Span
