import Mathlib.Order.Bounds.Basic
import Mathlib.Order.Monotone.Basic
import CuedProse.Proofs.Visible.Rank

/-!
# Rank and selection

The visible offsets of a text, written down in ascending order, are all there is to know about its
projection: from raw to visible is a rank in this list, from visible to raw a selection from it.

* `Span.freeOffsets`: the list; `freeOffsets_rank` is the rank of its entries.
* `toVisible_eq_rank`, `toRaw_eq_select`: the two directions.
* `rank_select`: these, and the laws by which they fit together.
-/
namespace CuedProse

namespace Span

/-- The offsets below `total` that no span covers, in ascending order. -/
def freeOffsets (spans : List Span) (total : Nat) : List Nat :=
  (List.range total).filter (isFree spans)

@[simp] theorem mem_freeOffsets {spans : List Span} {total o : Nat} :
    o ∈ freeOffsets spans total ↔ o < total ∧ ∀ s ∈ spans, ¬ s.Covers o := by
  simp [freeOffsets, isFree]

theorem freeOffsets_ascending (spans : List Span) (total : Nat) :
    (freeOffsets spans total).Pairwise (· < ·) := List.pairwise_lt_range.filter _

theorem length_freeOffsets (spans : List Span) (total : Nat) :
    (freeOffsets spans total).length = freeBelow spans total := List.countP_eq_length_filter.symm

theorem countP_freeOffsets (spans : List Span) (total r : Nat) :
    (freeOffsets spans total).countP (· < r) = freeBelow spans (min r total) := by
  unfold freeOffsets freeBelow
  rw [List.countP_filter]
  induction total with
  | zero => simp
  | succ total ih =>
    rw [List.range_succ, List.countP_append, ih]
    by_cases h : total < r
    · rw [Nat.min_eq_right (Nat.le_of_lt h), Nat.min_eq_right h, List.range_succ,
        List.countP_append]
      simp [List.countP_cons, h]
    · rw [Nat.min_eq_left (Nat.le_of_not_lt h), Nat.min_eq_left (by omega)]
      simp [h]

/-- So many entries of an ascending list are below one of them as stand before it. -/
theorem countP_lt_getElem {l : List Nat} (h : l.Pairwise (· < ·)) {i : Nat} (hi : i < l.length) :
    l.countP (· < l[i]) = i := by
  induction l generalizing i with
  | nil => cases hi
  | cons a l ih =>
    obtain ⟨hfirst, hrest⟩ := List.pairwise_cons.mp h
    cases i with
    | zero =>
      rw [List.countP_eq_zero]
      intro b hb
      rcases List.mem_cons.mp hb with heq | hb
      · simp [heq]
      · simpa using Nat.le_of_lt (hfirst b hb)
    | succ i =>
      have hlt : i < l.length := Nat.lt_of_succ_lt_succ hi
      rw [List.getElem_cons_succ, List.countP_cons_of_pos, ih hrest hlt]
      simpa using hfirst _ (List.getElem_mem hlt)

/-- The entry at place `v` is free, and `v` free offsets are below it. -/
theorem freeOffsets_rank {spans : List Span} {total v : Nat}
    (hv : v < (freeOffsets spans total).length) :
    (freeOffsets spans total)[v] < total ∧ isFree spans (freeOffsets spans total)[v] = true ∧
      freeBelow spans (freeOffsets spans total)[v] = v := by
  have hmem : (freeOffsets spans total)[v] ∈ freeOffsets spans total := List.getElem_mem hv
  obtain ⟨hrange, hfree⟩ := List.mem_filter.mp hmem
  have hlt : (freeOffsets spans total)[v] < total := List.mem_range.mp hrange
  have hcount := countP_lt_getElem (freeOffsets_ascending spans total) hv
  rw [countP_freeOffsets, Nat.min_eq_left (Nat.le_of_lt hlt)] at hcount
  exact ⟨hlt, hfree, hcount⟩

end Span

namespace Projection

variable (total : Nat) (spans : List Span)

theorem toVisible_eq_rank (r : Nat) :
    (ofSpans total spans).toVisible r = (Span.freeOffsets spans total).countP (· < r) := by
  rw [toVisible_ofSpans, Span.countP_freeOffsets]

theorem totalVisible_eq_length :
    (ofSpans total spans).totalVisible = (Span.freeOffsets spans total).length := by
  rw [totalVisible_ofSpans, Span.length_freeOffsets]

theorem eq_of_count_eq {free : Nat → Bool} {a b : Nat} (ha : free a = true) (hb : free b = true)
    (h : count free a = count free b) : a = b := by
  have hstep : ∀ c d, free c = true → c < d → count free c < count free d := by
    intro c d hc hcd
    have hmono := count_mono free (show c + 1 ≤ d from hcd)
    rw [count_succ, if_pos hc] at hmono
    omega
  rcases Nat.lt_trichotomy a b with hlt | heq | hgt
  · have := hstep a b ha hlt
    omega
  · exact heq
  · have := hstep b a hb hgt
    omega

theorem toRaw_eq_select (v : Nat) :
    (ofSpans total spans).toRaw v = (Span.freeOffsets spans total).getD v total := by
  by_cases hv : v < (Span.freeOffsets spans total).length
  · obtain ⟨-, hfree, hrank⟩ := Span.freeOffsets_rank hv
    obtain ⟨-, hfree', hrank'⟩ :=
      toRaw_ofSpans_free total spans (Span.length_freeOffsets spans total ▸ hv)
    rw [← List.getElem_eq_getD (h := hv)]
    exact eq_of_count_eq hfree' hfree (hrank'.trans hrank.symm)
  · have hle := Nat.le_of_not_lt hv
    rw [List.getD_eq_getElem?_getD, List.getElem?_eq_none hle, Option.getD_none]
    rw [Span.length_freeOffsets] at hle
    exact toRaw_ofSpans_end total spans hle

theorem toRaw_le (v : Nat) : (ofSpans total spans).toRaw v ≤ total := by
  rcases Nat.lt_or_ge v (Span.freeBelow spans total) with hlt | hge
  · exact Nat.le_of_lt (toRaw_ofSpans_free total spans hlt).1
  · exact Nat.le_of_eq (toRaw_ofSpans_end total spans hge)

/-- The two directions fit together: `r` is reached by `v` if its rank is. -/
theorem toVisible_le_iff {r : Nat} (hr : r ≤ total) (v : Nat) :
    (ofSpans total spans).toVisible r ≤ v ↔ r ≤ (ofSpans total spans).toRaw v := by
  rw [toVisible_ofSpans, Nat.min_eq_left hr, le_toRaw_iff total spans hr]

theorem toVisible_toRaw (v : Nat) :
    (ofSpans total spans).toVisible ((ofSpans total spans).toRaw v) =
      min v (ofSpans total spans).totalVisible := by
  rw [toVisible_ofSpans, Nat.min_eq_left (toRaw_le total spans v), totalVisible_ofSpans]
  rcases Nat.lt_or_ge v (Span.freeBelow spans total) with hlt | hge
  · rw [(toRaw_ofSpans_free total spans hlt).2.2, Nat.min_eq_left (Nat.le_of_lt hlt)]
  · rw [toRaw_ofSpans_end total spans hge, Nat.min_eq_right hge]

theorem toRaw_toVisible_of_mem {o : Nat} (ho : o ∈ Span.freeOffsets spans total) :
    (ofSpans total spans).toRaw ((ofSpans total spans).toVisible o) = o := by
  obtain ⟨v, hv, hov⟩ := List.mem_iff_getElem.mp ho
  rw [toVisible_eq_rank, ← hov, Span.countP_lt_getElem (Span.freeOffsets_ascending spans total) hv,
    toRaw_eq_select, List.getElem_eq_getD]

theorem toRaw_strictMonoOn :
    StrictMonoOn (ofSpans total spans).toRaw (Set.Iic (ofSpans total spans).totalVisible) := by
  intro v _ w hw hvw
  refine Nat.lt_of_not_le fun hle => ?_
  have hrank := (toVisible_le_iff total spans (toRaw_le total spans w) v).mpr hle
  rw [toVisible_toRaw, Nat.min_eq_left hw] at hrank
  omega

theorem toRaw_toVisible_le {r o : Nat} (ho : o ∈ Span.freeOffsets spans total) (hro : r ≤ o) :
    (ofSpans total spans).toRaw ((ofSpans total spans).toVisible r) ≤ o := by
  have hrank : (ofSpans total spans).toVisible r ≤ (ofSpans total spans).toVisible o := by
    rw [toVisible_eq_rank, toVisible_eq_rank]
    refine List.countP_mono_left fun a _ ha => ?_
    simp only [decide_eq_true_eq] at ha ⊢
    omega
  refine Nat.le_trans ?_ (Nat.le_of_eq (toRaw_toVisible_of_mem total spans ho))
  rw [← toVisible_le_iff total spans (toRaw_le total spans _), toVisible_toRaw]
  omega

/-- Going to visible and back finds the next visible offset, or the end of the text. -/
theorem toRaw_toVisible (r : Nat) :
    IsLeast {o | o ∈ Span.freeOffsets spans total ∧ r ≤ o}
        ((ofSpans total spans).toRaw ((ofSpans total spans).toVisible r)) ∨
      (∀ o ∈ Span.freeOffsets spans total, o < r) ∧
        (ofSpans total spans).toRaw ((ofSpans total spans).toVisible r) = total := by
  have hleast := fun o => toRaw_toVisible_le total spans (r := r) (o := o)
  by_cases hv : (ofSpans total spans).toVisible r < (Span.freeOffsets spans total).length
  · left
    have hselect := toRaw_eq_select total spans ((ofSpans total spans).toVisible r)
    rw [← List.getElem_eq_getD (h := hv)] at hselect
    refine ⟨⟨hselect ▸ List.getElem_mem hv, ?_⟩, fun o ho => hleast o ho.1 ho.2⟩
    have hr : r ≤ total := by
      refine Nat.le_of_not_lt fun hlt => ?_
      rw [toVisible_ofSpans, Nat.min_eq_right (Nat.le_of_lt hlt), Span.length_freeOffsets] at hv
      omega
    exact (toVisible_le_iff total spans hr _).mp (Nat.le_refl _)
  · right
    rw [Span.length_freeOffsets, Nat.not_lt] at hv
    have hend := toRaw_ofSpans_end total spans hv
    refine ⟨fun o ho => Nat.lt_of_not_le fun hro => ?_, hend⟩
    have hlt := (Span.mem_freeOffsets.mp ho).1
    have hle := hleast o ho hro
    omega

theorem isVisible_iff_mem (r : Nat) :
    (ofSpans total spans).isVisible r = true ↔ r ∈ Span.freeOffsets spans total := by
  by_cases hr : r < total
  · rw [isVisible_ofSpans total spans hr, Span.isFree_eq_true]
    simp [hr]
  · have hnone : (ofSpans total spans).stretches.find? (fun s => r < s.stop) = none := by
      rw [List.find?_eq_none]
      intro s hs
      have := stop_le_of_mem total spans hs
      simp only [decide_eq_true_eq]
      omega
    simp [isVisible, hnone, hr]

/-- **Rank and selection.** Whatever the spans, the visible offsets are those below `total` that no
span covers. From raw to visible counts the visible offsets below the given one; from visible to raw
gives the visible offset that has so many before it, and the end of the text if there is none. So
one direction is at most `v` exactly as far as the other one reaches, from visible to raw and back
changes nothing up to the last visible offset, from raw to visible and back goes on to the next
visible offset or to the end, and from visible to raw is strictly increasing. -/
theorem rank_select (total : Nat) (spans : List Span) :
    let p := ofSpans total spans
    let visible := Span.freeOffsets spans total
    p.totalVisible = visible.length ∧
      (∀ r, p.isVisible r = true ↔ r ∈ visible) ∧
      (∀ r, p.toVisible r = visible.countP (· < r)) ∧
      (∀ v, p.toRaw v = visible.getD v total) ∧
      (∀ r ≤ total, ∀ v, p.toVisible r ≤ v ↔ r ≤ p.toRaw v) ∧
      (∀ v, p.toVisible (p.toRaw v) = min v p.totalVisible) ∧
      (∀ r, IsLeast {o | o ∈ visible ∧ r ≤ o} (p.toRaw (p.toVisible r)) ∨
        (∀ o ∈ visible, o < r) ∧ p.toRaw (p.toVisible r) = total) ∧
      StrictMonoOn p.toRaw (Set.Iic p.totalVisible) := by
  intro p visible
  exact ⟨totalVisible_eq_length total spans, isVisible_iff_mem total spans,
    toVisible_eq_rank total spans, toRaw_eq_select total spans,
    fun r hr v => toVisible_le_iff total spans hr v, toVisible_toRaw total spans,
    toRaw_toVisible total spans, toRaw_strictMonoOn total spans⟩

/-- Spans out of order, one inside the other, side by side, empty, reversed and past the end leave
three offsets of ten; the last one is found from inside the markup before it. -/
theorem rank_select_of_tangled :
    let spans : List Span := [⟨7, 9⟩, ⟨2, 4⟩, ⟨2, 5⟩, ⟨5, 6⟩, ⟨8, 20⟩, ⟨1, 1⟩, ⟨6, 0⟩]
    let p := ofSpans 10 spans
    Span.freeOffsets spans 10 = [0, 1, 6] ∧ 3 ≤ 10 ∧ (p.toVisible 3 ≤ 2 ↔ 3 ≤ p.toRaw 2) ∧
      p.toRaw (p.toVisible 3) = 6 ∧ p.toRaw 3 = 10 := by
  intro spans p
  obtain ⟨-, -, -, hselect, hfit, -⟩ := rank_select 10 spans
  exact ⟨by decide, by decide, hfit 3 (by decide) 2, by decide, hselect 3⟩

end Projection

end CuedProse
