import CuedProse.Visible.Span

/-!
# The union of spans

* `sortByStart_perm`, `sortByStart_sorted`: sorting keeps the spans and orders them by their start.
* `union_covers`: the union covers exactly what the spans cover.
* `union_separated`: its spans are not empty, come in order, and none touches the next.
-/
namespace CuedProse.Span

/-- Not empty, in order, and none touching the next. -/
structure Separated (spans : List Span) : Prop where
  start_lt : ∀ s ∈ spans, s.start < s.stop
  apart : spans.Pairwise fun s t => s.stop < t.start

/-! ## Sorting -/

theorem insertByStart_perm (s : Span) (spans : List Span) :
    (insertByStart s spans).Perm (s :: spans) := by
  induction spans with
  | nil => exact .refl _
  | cons t spans ih =>
    unfold insertByStart
    split
    · exact .refl _
    · exact (ih.cons t).trans (.swap s t spans)

theorem sortByStart_perm (spans : List Span) : (sortByStart spans).Perm spans := by
  induction spans with
  | nil => exact .refl _
  | cons s spans ih => exact (insertByStart_perm s _).trans (ih.cons s)

theorem mem_sortByStart {s : Span} {spans : List Span} : s ∈ sortByStart spans ↔ s ∈ spans :=
  (sortByStart_perm spans).mem_iff

theorem insertByStart_sorted (s : Span) {spans : List Span}
    (h : spans.Pairwise fun t u => t.start ≤ u.start) :
    (insertByStart s spans).Pairwise fun t u => t.start ≤ u.start := by
  induction spans with
  | nil => simp [insertByStart]
  | cons t spans ih =>
    obtain ⟨ht, hs⟩ := List.pairwise_cons.mp h
    unfold insertByStart
    split
    · rename_i hle
      refine List.pairwise_cons.mpr ⟨fun u hu => ?_, h⟩
      rcases List.mem_cons.mp hu with rfl | hu
      · exact hle
      · exact Nat.le_trans hle (ht u hu)
    · refine List.pairwise_cons.mpr ⟨fun u hu => ?_, ih hs⟩
      rcases List.mem_cons.mp ((insertByStart_perm s spans).mem_iff.mp hu) with rfl | hu
      · omega
      · exact ht u hu

theorem sortByStart_sorted (spans : List Span) :
    (sortByStart spans).Pairwise fun s t => s.start ≤ t.start := by
  induction spans with
  | nil => exact .nil
  | cons s spans ih => exact insertByStart_sorted s ih

/-! ## Fusing -/

/-- Growing a span over one that overlaps or touches it covers both and no more. -/
theorem covers_grown {s t : Span} (h1 : s.start ≤ t.start) (h2 : t.start ≤ s.stop) (r : Nat) :
    Covers ⟨s.start, max s.stop t.stop⟩ r ↔ s.Covers r ∨ t.Covers r := by
  simp only [Covers]
  omega

theorem fuse_covers {current : Span} {spans : List Span} (hc : current.start < current.stop)
    (hn : ∀ s ∈ spans, s.start < s.stop)
    (hs : (current :: spans).Pairwise fun s t => s.start ≤ t.start) (r : Nat) :
    (∃ s ∈ fuse current spans, s.Covers r) ↔ current.Covers r ∨ ∃ s ∈ spans, s.Covers r := by
  induction spans generalizing current with
  | nil => simp [fuse]
  | cons t spans ih =>
    obtain ⟨h1, hs⟩ := List.pairwise_cons.mp hs
    obtain ⟨h2, hs'⟩ := List.pairwise_cons.mp hs
    have ht : t.start < t.stop := hn t (List.mem_cons_self ..)
    have hn' : ∀ s ∈ spans, s.start < s.stop := fun s h => hn s (List.mem_cons_of_mem _ h)
    have hct : current.start ≤ t.start := h1 t (List.mem_cons_self ..)
    simp only [List.mem_cons, exists_eq_or_imp]
    unfold fuse
    split
    · rename_i hle
      rw [ih (by simp only; omega) hn', covers_grown hct hle, or_assoc]
      exact List.pairwise_cons.mpr ⟨fun s h => h1 s (List.mem_cons_of_mem _ h), hs'⟩
    · simp only [List.mem_cons, exists_eq_or_imp, ih ht hn' hs]

theorem fuse_start_le {current : Span} {spans : List Span}
    (hs : (current :: spans).Pairwise fun s t => s.start ≤ t.start) :
    ∀ s ∈ fuse current spans, current.start ≤ s.start := by
  induction spans generalizing current with
  | nil => simp [fuse]
  | cons t spans ih =>
    obtain ⟨h1, hs⟩ := List.pairwise_cons.mp hs
    obtain ⟨h2, hs'⟩ := List.pairwise_cons.mp hs
    unfold fuse
    split
    · exact ih (List.pairwise_cons.mpr ⟨fun s h => h1 s (List.mem_cons_of_mem _ h), hs'⟩)
    · intro s h
      rcases List.mem_cons.mp h with rfl | h
      · exact Nat.le_refl _
      · exact Nat.le_trans (h1 t (List.mem_cons_self ..)) (ih hs s h)

theorem fuse_separated {current : Span} {spans : List Span} (hc : current.start < current.stop)
    (hn : ∀ s ∈ spans, s.start < s.stop)
    (hs : (current :: spans).Pairwise fun s t => s.start ≤ t.start) :
    Separated (fuse current spans) := by
  induction spans generalizing current with
  | nil => exact ⟨by simpa [fuse] using hc, by simp [fuse]⟩
  | cons t spans ih =>
    obtain ⟨h1, hs⟩ := List.pairwise_cons.mp hs
    obtain ⟨h2, hs'⟩ := List.pairwise_cons.mp hs
    have ht : t.start < t.stop := hn t (List.mem_cons_self ..)
    have hn' : ∀ s ∈ spans, s.start < s.stop := fun s h => hn s (List.mem_cons_of_mem _ h)
    unfold fuse
    split
    · refine ih (by simp only; omega) hn' ?_
      exact List.pairwise_cons.mpr ⟨fun s h => h1 s (List.mem_cons_of_mem _ h), hs'⟩
    · rename_i hlt
      obtain ⟨hne, hap⟩ := ih ht hn' hs
      refine ⟨fun s h => ?_, List.pairwise_cons.mpr ⟨fun s h => ?_, hap⟩⟩
      · rcases List.mem_cons.mp h with rfl | h
        · exact hc
        · exact hne s h
      · have := fuse_start_le hs s h
        omega

/-! ## The union -/

theorem nonEmpty_sorted (spans : List Span) :
    (∀ s ∈ sortByStart (spans.filter fun s => s.start < s.stop), s.start < s.stop) ∧
      ∀ r, (∃ s ∈ sortByStart (spans.filter fun s => s.start < s.stop), s.Covers r) ↔
        ∃ s ∈ spans, s.Covers r := by
  refine ⟨fun s h => ?_, fun r => ⟨?_, ?_⟩⟩
  · simpa using (List.mem_filter.mp (mem_sortByStart.mp h)).2
  · intro hin
    obtain ⟨s, h, hr⟩ := hin
    exact ⟨s, (List.mem_filter.mp (mem_sortByStart.mp h)).1, hr⟩
  · intro hin
    obtain ⟨s, h, hr⟩ := hin
    have : s.start < s.stop := Nat.lt_of_le_of_lt hr.1 hr.2
    exact ⟨s, mem_sortByStart.mpr (List.mem_filter.mpr ⟨h, by simpa using this⟩), hr⟩

theorem union_covers (spans : List Span) (r : Nat) :
    (∃ s ∈ union spans, s.Covers r) ↔ ∃ s ∈ spans, s.Covers r := by
  obtain ⟨hn, hr⟩ := nonEmpty_sorted spans
  have hs := sortByStart_sorted (spans.filter fun s => s.start < s.stop)
  rw [← hr r]
  unfold union
  split
  · rename_i h
    simp [h]
  · rename_i s rest h
    rw [h] at hn hs ⊢
    have hrest := fun t ht => hn t (List.mem_cons_of_mem _ ht)
    rw [fuse_covers (hn s (List.mem_cons_self ..)) hrest hs]
    simp only [List.mem_cons, exists_eq_or_imp]

theorem union_separated (spans : List Span) : Separated (union spans) := by
  have hn := (nonEmpty_sorted spans).1
  have hs := sortByStart_sorted (spans.filter fun s => s.start < s.stop)
  unfold union
  split
  · exact ⟨by simp, .nil⟩
  · rename_i s rest h
    rw [h] at hn hs
    exact fuse_separated (hn s (List.mem_cons_self ..))
      (fun t ht => hn t (List.mem_cons_of_mem _ ht)) hs

end CuedProse.Span
