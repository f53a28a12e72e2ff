import CuedProse.Proofs.Visible.Union
import CuedProse.Visible.Projection

/-!
# Counting visible characters

`Span.freeBelow` counts the offsets below a given one that no span covers. The projection answers
with its list of stretches what the count says.

* `fill_gaps`: the stretches are the maximal runs of free offsets, in order, each with the count
  before it.
* `toVisible_ofSpans`: from raw to visible is this count.
* `isVisible_ofSpans`: a character is visible if no span covers it.
* `toRaw_ofSpans_free`, `toRaw_ofSpans_end`: from visible to raw is the free offset with so many
  free ones below, and the end of the text if there is none.
* `le_toRaw_iff`: an offset is at or before the raw offset of `v` if at most `v` free ones are
  below it.
-/
namespace CuedProse

namespace Span

def isFree (spans : List Span) (r : Nat) : Bool := spans.all fun s => !decide (s.Covers r)

/-- The number of offsets below `r` that no span covers. -/
def freeBelow (spans : List Span) (r : Nat) : Nat := (List.range r).countP (isFree spans)

theorem isFree_eq_true {spans : List Span} {r : Nat} :
    isFree spans r = true ↔ ¬ ∃ s ∈ spans, s.Covers r := by
  simp [isFree]

theorem isFree_eq_false {spans : List Span} {r : Nat} :
    isFree spans r = false ↔ ∃ s ∈ spans, s.Covers r := by
  simp [isFree]

end Span

namespace Projection

/-! ## The count -/

def count (free : Nat → Bool) (r : Nat) : Nat := (List.range r).countP free

theorem count_succ (free : Nat → Bool) (r : Nat) :
    count free (r + 1) = count free r + if free r then 1 else 0 := by
  simp [count, List.range_succ, List.countP_append, List.countP_cons]

theorem count_mono (free : Nat → Bool) {a b : Nat} (h : a ≤ b) : count free a ≤ count free b := by
  induction h with
  | refl => exact Nat.le_refl _
  | step _ ih => rw [count_succ]; omega

theorem count_of_free (free : Nat → Bool) {a b : Nat} (h : a ≤ b)
    (hf : ∀ o, a ≤ o → o < b → free o = true) : count free b = count free a + (b - a) := by
  induction h with
  | refl => simp
  | @step m hm ih =>
    simp only [Nat.succ_eq_add_one] at hf ⊢
    have hm' : a ≤ m := hm
    rw [count_succ, ih fun o h1 h2 => hf o h1 (by omega), hf m hm (by omega), if_pos rfl]
    omega

theorem count_of_covered (free : Nat → Bool) {a b : Nat} (h : a ≤ b)
    (hf : ∀ o, a ≤ o → o < b → free o = false) : count free b = count free a := by
  induction h with
  | refl => rfl
  | @step m hm ih =>
    simp only [Nat.succ_eq_add_one] at hf ⊢
    rw [count_succ, ih fun o h1 h2 => hf o h1 (by omega), hf m hm (by omega)]
    simp

/-! ## The stretches -/

/-- The stretches `l` are the maximal runs of free offsets from `cursor` up to `total`, in order,
and `before` more free offsets are in front of the first one. -/
def Fill (free : Nat → Bool) (total : Nat) : Nat → Nat → List Stretch → Prop
  | cursor, _, [] => ∀ o, cursor ≤ o → o < total → free o = false
  | cursor, before, s :: l =>
    (cursor ≤ s.start ∧ s.start < s.stop ∧ s.stop ≤ total ∧ s.before = before) ∧
    (∀ o, cursor ≤ o → o < s.start → free o = false) ∧
    (∀ o, s.start ≤ o → o < s.stop → free o = true) ∧
    (s.stop < total → free s.stop = false) ∧
    Fill free total s.stop (before + s.length) l

/-- Covered offsets may be put in front. -/
theorem Fill.extend {free : Nat → Bool} {total cursor cursor' before : Nat} {l : List Stretch}
    (h : Fill free total cursor' before l) (hle : cursor ≤ cursor')
    (hc : ∀ o, cursor ≤ o → o < cursor' → free o = false) : Fill free total cursor before l := by
  cases l with
  | nil =>
    intro o h1 h2
    by_cases ho : o < cursor'
    · exact hc o h1 ho
    · exact h o (by omega) h2
  | cons s l =>
    obtain ⟨⟨h1, h2, h3, h4⟩, h5, h6, h7, h8⟩ := h
    refine ⟨⟨by omega, h2, h3, h4⟩, fun o ho ho' => ?_, h6, h7, h8⟩
    by_cases hoc : o < cursor'
    · exact hc o ho hoc
    · exact h5 o (by omega) ho'

theorem Fill.stop_le {free : Nat → Bool} {total cursor before : Nat} {l : List Stretch}
    (h : Fill free total cursor before l) {s : Stretch} (hs : s ∈ l) : s.stop ≤ total := by
  induction l generalizing cursor before with
  | nil => cases hs
  | cons t l ih =>
    rcases List.mem_cons.mp hs with rfl | hs
    · exact h.1.2.2.1
    · exact ih h.2.2.2.2 hs

theorem fill_gaps {free : Nat → Bool} {total cursor before : Nat} {spans : List Span}
    (hsep : Span.Separated spans) (hin : ∀ s ∈ spans, cursor ≤ s.start ∧ s.stop ≤ total)
    (hcur : cursor ≤ total)
    (hfree : ∀ o, cursor ≤ o → o < total → (free o = true ↔ ¬ ∃ s ∈ spans, s.Covers o)) :
    Fill free total cursor before (gaps total cursor before spans) := by
  induction spans generalizing cursor before with
  | nil =>
    unfold gaps
    split
    · refine ⟨⟨Nat.le_refl _, by assumption, Nat.le_refl _, rfl⟩, ?_, ?_, ?_, ?_⟩
      · intro o h1 h2; simp only at h2; omega
      · intro o h1 h2; exact (hfree o h1 h2).mpr (by simp)
      · intro h; simp only at h; omega
      · intro o h1 h2; simp only at h1; omega
    · intro o h1 h2; omega
  | cons s spans ih =>
    obtain ⟨hne, hap⟩ := hsep
    obtain ⟨hs, hap⟩ := List.pairwise_cons.mp hap
    obtain ⟨hcs, hst⟩ := hin s (List.mem_cons_self ..)
    have hss := hne s (List.mem_cons_self ..)
    have hcov : ∀ o, s.start ≤ o → o < s.stop → free o = false := by
      intro o h1 h2
      have := hfree o (by omega) (by omega)
      simp only [Bool.eq_false_iff, ne_eq, this, Decidable.not_not]
      exact ⟨s, List.mem_cons_self .., h1, h2⟩
    -- behind `s` only the other spans can cover anything
    have hrest : ∀ b, Fill free total s.stop b (gaps total s.stop b spans) := by
      intro b
      refine ih ⟨fun t ht => hne t (List.mem_cons_of_mem _ ht), hap⟩ (fun t ht => ?_) hst ?_
      · have := hs t ht
        have := (hin t (List.mem_cons_of_mem _ ht)).2
        omega
      · intro o h1 h2
        rw [hfree o (by omega) h2]
        simp only [List.mem_cons, exists_eq_or_imp, Span.Covers]
        constructor
        · intro h h'; exact h (.inr h')
        · intro h hin
          rcases hin with h' | h'
          · omega
          · exact h h'
    unfold gaps
    split
    · rename_i hlt
      refine ⟨⟨Nat.le_refl _, hlt, by simp only; omega, rfl⟩, ?_, ?_, ?_, ?_⟩
      · intro o h1 h2; simp only at h2; omega
      · intro o h1 h2
        simp only at h1 h2
        refine (hfree o h1 (by omega)).mpr ?_
        intro hin
        obtain ⟨t, ht, h3, h4⟩ := hin
        rcases List.mem_cons.mp ht with rfl | ht
        · omega
        · have := hs t ht; omega
      · intro _; exact hcov _ (Nat.le_refl _) hss
      · exact (hrest _).extend (by simp only; omega) hcov
    · have : max cursor s.stop = s.stop := by omega
      rw [this]
      exact (hrest before).extend (by omega) fun o h1 h2 => hcov o (by omega) h2

theorem visibleLength_of_fill {free : Nat → Bool} {total cursor before : Nat} {l : List Stretch}
    (h : Fill free total cursor before l) (hcur : cursor ≤ total)
    (hb : before = count free cursor) : before + visibleLength l = count free total := by
  induction l generalizing cursor before with
  | nil => rw [hb, visibleLength, count_of_covered free hcur h, Nat.add_zero]
  | cons s l ih =>
    obtain ⟨⟨h1, h2, h3, h4⟩, h5, h6, -, h8⟩ := h
    have hstart := count_of_covered free h1 h5
    have hstop := count_of_free free (Nat.le_of_lt h2) h6
    have := ih h8 h3 (by rw [hstop, hstart, ← hb]; rfl)
    rw [visibleLength]
    omega

/-! ## Looking offsets up -/

/-- The first stretch that ends behind `r` gives the count below `r`. -/
theorem toVisible_of_fill {free : Nat → Bool} {total cursor before : Nat} {l : List Stretch}
    (h : Fill free total cursor before l) (hb : before = count free cursor) {r : Nat}
    (hr : cursor ≤ r) (hrt : r ≤ total) :
    (match l.find? fun s => r < s.stop with
      | some s => if s.start ≤ r then s.before + (r - s.start) else s.before
      | none => count free total) = count free r := by
  induction l generalizing cursor before with
  | nil => exact count_of_covered free hrt fun o h1 h2 => h o (by omega) h2
  | cons s l ih =>
    obtain ⟨⟨h1, h2, h3, h4⟩, h5, h6, -, h8⟩ := h
    have hstart := count_of_covered free h1 h5
    by_cases hs : r < s.stop
    · rw [List.find?_cons_of_pos (by simpa using hs)]
      simp only [h4, hb]
      split
      · rename_i hle
        rw [count_of_free free hle fun o ho ho' => h6 o ho (by omega), hstart]
      · exact (count_of_covered free hr fun o ho ho' => h5 o ho (by omega)).symm
    · have hstop := count_of_free free (Nat.le_of_lt h2) h6
      rw [List.find?_cons_of_neg (by simpa using hs)]
      exact ih h8 (by rw [hstop, hstart, ← hb]; rfl) (by omega)

theorem isVisible_of_fill {free : Nat → Bool} {total cursor before : Nat} {l : List Stretch}
    (h : Fill free total cursor before l) {r : Nat} (hr : cursor ≤ r) (hrt : r < total) :
    (match l.find? fun s => r < s.stop with
      | some s => decide (s.start ≤ r)
      | none => false) = free r := by
  induction l generalizing cursor before with
  | nil => exact (h r hr hrt).symm
  | cons s l ih =>
    obtain ⟨-, hcovered, hfree, -, hrest⟩ := h
    by_cases hs : r < s.stop
    · rw [List.find?_cons_of_pos (by simpa using hs)]
      by_cases hstart : s.start ≤ r
      · simp only [hstart, decide_true, hfree r hstart hs]
      · simp only [hstart, decide_false, hcovered r hr (Nat.lt_of_not_le hstart)]
    · rw [List.find?_cons_of_neg (by simpa using hs)]
      exact ih hrest (Nat.le_of_not_lt hs)

/-- The first stretch with more than `v` visible characters up to its end holds the one with `v` of
them before it. -/
theorem toRaw_of_fill {free : Nat → Bool} {total cursor before : Nat} {l : List Stretch}
    (h : Fill free total cursor before l) (hcur : cursor ≤ total)
    (hb : before = count free cursor) {v : Nat} (hv : before ≤ v) (hvt : v < count free total) :
    ∃ s, l.find? (fun s => v < s.visibleStop) = some s ∧
      s.start + (v - s.before) < total ∧ free (s.start + (v - s.before)) = true ∧
      count free (s.start + (v - s.before)) = v := by
  induction l generalizing cursor before with
  | nil =>
    have := count_of_covered free hcur h
    omega
  | cons s l ih =>
    obtain ⟨⟨h1, h2, h3, h4⟩, h5, h6, -, h8⟩ := h
    have hstart := count_of_covered free h1 h5
    have hstop := count_of_free free (Nat.le_of_lt h2) h6
    by_cases hs : v < s.visibleStop
    · rw [List.find?_cons_of_pos (by simpa using hs)]
      simp only [Stretch.visibleStop, Stretch.length] at hs
      refine ⟨s, rfl, by omega, h6 _ (by omega) (by omega), ?_⟩
      rw [count_of_free free (Nat.le_add_right _ _) fun o ho ho' => h6 o ho (by omega)]
      omega
    · rw [List.find?_cons_of_neg (by simpa using hs)]
      refine ih h8 h3 (by rw [hstop, hstart, ← hb]; rfl) ?_
      simp only [Stretch.visibleStop, h4] at hs
      omega

/-! ## The projection of a text -/

section
variable (total : Nat) (spans : List Span)

theorem covers_clamp {o : Nat} (h : o < total) :
    (∃ s ∈ spans.map (Span.clamp total), s.Covers o) ↔ ∃ s ∈ spans, s.Covers o := by
  constructor
  · intro hin
    obtain ⟨_, hm, hc⟩ := hin
    obtain ⟨s, hs, rfl⟩ := List.mem_map.mp hm
    exact ⟨s, hs, by simp only [Span.Covers, Span.clamp] at hc ⊢; omega⟩
  · intro hin
    obtain ⟨s, hs, hc⟩ := hin
    refine ⟨s.clamp total, List.mem_map_of_mem hs, ?_⟩
    simp only [Span.Covers, Span.clamp] at hc ⊢
    omega

theorem fill_ofSpans :
    Fill (Span.isFree spans) total 0 0
      (gaps total 0 0 (Span.union (spans.map (Span.clamp total)))) := by
  have hcov := Span.union_covers (spans.map (Span.clamp total))
  have hsep := Span.union_separated (spans.map (Span.clamp total))
  refine fill_gaps hsep (fun s hs => ⟨Nat.zero_le _, ?_⟩) (Nat.zero_le _) fun o _ ho => ?_
  · -- the last offset of a span of the union lies in a span that is cut back
    have hne := hsep.start_lt s hs
    obtain ⟨t, ht, -, htr⟩ := (hcov (s.stop - 1)).mp ⟨s, hs, by simp only [Span.Covers]; omega⟩
    obtain ⟨u, -, rfl⟩ := List.mem_map.mp ht
    simp only [Span.clamp] at htr
    omega
  · rw [Span.isFree_eq_true, hcov, covers_clamp total spans ho]

theorem totalVisible_ofSpans : (ofSpans total spans).totalVisible = Span.freeBelow spans total := by
  have := visibleLength_of_fill (fill_ofSpans total spans) (Nat.zero_le _) rfl
  simpa [ofSpans, Span.freeBelow, count] using this

theorem stop_le_of_mem {s : Stretch} (hs : s ∈ (ofSpans total spans).stretches) :
    s.stop ≤ total := by
  simp only [ofSpans] at hs
  split at hs
  · have hend := List.mem_singleton.mp hs
    exact Nat.le_of_eq (congrArg Stretch.stop hend)
  · exact (fill_ofSpans total spans).stop_le hs

theorem toVisible_ofSpans (r : Nat) :
    (ofSpans total spans).toVisible r = Span.freeBelow spans (min r total) := by
  have hfill := fill_ofSpans total spans
  have htot := totalVisible_ofSpans total spans
  unfold toVisible
  by_cases hr : r < total
  · rw [Nat.min_eq_left (Nat.le_of_lt hr)]
    by_cases hne : gaps total 0 0 (Span.union (spans.map (Span.clamp total))) = []
    · -- a text without a visible character
      rw [hne] at hfill
      have hz := count_of_covered (Span.isFree spans) (Nat.zero_le r)
        fun o _ ho => hfill o (Nat.zero_le o) (by omega)
      simp only [ofSpans, if_pos hne, List.find?_cons, hr, decide_true, if_neg (Nat.not_le.mpr hr)]
      exact hz.symm
    · have := toVisible_of_fill hfill rfl (Nat.zero_le r) (Nat.le_of_lt hr)
      rw [htot]
      simp only [ofSpans, if_neg hne]
      exact this
  · rw [Nat.min_eq_right (Nat.le_of_not_lt hr)]
    have hnone : (ofSpans total spans).stretches.find? (fun s => r < s.stop) = none := by
      rw [List.find?_eq_none]
      intro s hs
      have := stop_le_of_mem total spans hs
      simp only [decide_eq_true_eq]
      omega
    rw [hnone]
    exact htot

theorem isVisible_ofSpans {r : Nat} (hr : r < total) :
    (ofSpans total spans).isVisible r = Span.isFree spans r := by
  have hvisible := isVisible_of_fill (fill_ofSpans total spans) (Nat.zero_le r) hr
  unfold isVisible
  by_cases hne : gaps total 0 0 (Span.union (spans.map (Span.clamp total))) = []
  · -- the one empty stretch begins behind every character
    rw [hne] at hvisible
    rw [← hvisible]
    simp only [ofSpans, if_pos hne, List.find?_cons, hr, decide_true, Nat.not_le.mpr hr,
      decide_false, List.find?_nil]
  · simp only [ofSpans, if_neg hne]
    exact hvisible

theorem toRaw_ofSpans_end {v : Nat} (h : Span.freeBelow spans total ≤ v) :
    (ofSpans total spans).toRaw v = total := by
  rw [← totalVisible_ofSpans] at h
  unfold toRaw
  rw [if_pos h]
  rfl

theorem toRaw_ofSpans_free {v : Nat} (h : v < Span.freeBelow spans total) :
    (ofSpans total spans).toRaw v < total ∧
      Span.isFree spans ((ofSpans total spans).toRaw v) = true ∧
      Span.freeBelow spans ((ofSpans total spans).toRaw v) = v := by
  obtain ⟨s, hs, h1, h2, h3⟩ :=
    toRaw_of_fill (fill_ofSpans total spans) (Nat.zero_le _) rfl (Nat.zero_le v) h
  have htot := totalVisible_ofSpans total spans
  have hne : gaps total 0 0 (Span.union (spans.map (Span.clamp total))) ≠ [] := by
    intro he
    rw [he] at hs
    cases hs
  have hraw : (ofSpans total spans).toRaw v = s.start + (v - s.before) := by
    unfold toRaw
    rw [if_neg (by omega)]
    simp only [ofSpans, if_neg hne, hs]
  rw [hraw]
  exact ⟨h1, h2, h3⟩

/-- An offset of the text is at or before the raw offset of `v` if at most `v` visible characters
are below it. -/
theorem le_toRaw_iff {r : Nat} (hr : r ≤ total) (v : Nat) :
    r ≤ (ofSpans total spans).toRaw v ↔ Span.freeBelow spans r ≤ v := by
  by_cases h : v < Span.freeBelow spans total
  · obtain ⟨h1, h2, h3⟩ := toRaw_ofSpans_free total spans h
    constructor
    · intro hle
      have := count_mono (Span.isFree spans) hle
      exact Nat.le_trans this (Nat.le_of_eq h3)
    · intro hle
      refine Nat.le_of_not_lt fun hlt => ?_
      have hmono := count_mono (Span.isFree spans) (show _ + 1 ≤ r from hlt)
      rw [count_succ, h2, if_pos rfl] at hmono
      simp only [Span.freeBelow, count] at h3 hle hmono
      omega
  · have hle : Span.freeBelow spans total ≤ v := Nat.le_of_not_lt h
    rw [toRaw_ofSpans_end total spans hle]
    have := count_mono (Span.isFree spans) hr
    exact ⟨fun _ => Nat.le_trans this hle, fun _ => hr⟩

end

end Projection

end CuedProse
