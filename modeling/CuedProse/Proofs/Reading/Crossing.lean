import CuedProse.Reading.Trigger

/-!
# Crossing the ends of cues

What one move of a trigger does, for cues that are in order and do not overlap.

* `between_eq_filter`: cutting the list of cues at two places picks those that end in a range.
* `fireAll_spec`: of the crossed cues those fire that are armed, each once; they are then known as
  fired and no longer rearmed.
* `advance_first`, `advance_back`, `advance_forward`: the three kinds of move.
* `advance_count`: a move counts the cues that it sends.
-/
namespace CuedProse

/-! ## Sets of offsets -/

namespace OffsetSet

theorem mem_insertOrdered {m n : Nat} {l : List Nat} : m ∈ insertOrdered n l ↔ m = n ∨ m ∈ l := by
  induction l with
  | nil => simp [insertOrdered]
  | cons k l ih =>
    unfold insertOrdered
    split
    · simp
    · split
      · rename_i h
        subst h
        simp
      · simp only [List.mem_cons, ih]
        exact or_left_comm

@[simp] theorem mem_insert {s : OffsetSet} {m n : Nat} :
    m ∈ (s.insert n).offsets ↔ m = n ∨ m ∈ s.offsets := mem_insertOrdered

@[simp] theorem mem_erase {s : OffsetSet} {m n : Nat} :
    m ∈ (s.erase n).offsets ↔ m ∈ s.offsets ∧ m ≠ n := by
  simp [erase]

@[simp] theorem contains_eq_true {s : OffsetSet} {n : Nat} :
    s.contains n = true ↔ n ∈ s.offsets := by
  simp [contains]

theorem mem_foldl_insert {cues : List Cue} {s : OffsetSet} {m : Nat} :
    m ∈ (cues.foldl (fun s c => s.insert c.start) s).offsets ↔
      m ∈ s.offsets ∨ ∃ c ∈ cues, c.start = m := by
  induction cues generalizing s with
  | nil => simp
  | cons c cues ih =>
    rw [List.foldl_cons, ih, mem_insert]
    simp only [List.mem_cons, exists_eq_or_imp, eq_comm (a := m)]
    rw [or_comm (a := c.start = m), or_assoc]

end OffsetSet

namespace Trigger

/-! ## Cues in order -/

/-- The cues are in order, do not overlap, and none is empty. -/
structure Ordered (cues : List Cue) : Prop where
  start_lt_stop : ∀ c ∈ cues, c.start < c.stop
  apart : cues.Pairwise fun c d => c.stop ≤ d.start

namespace Ordered

variable {cues : List Cue}

theorem start_lt (h : Ordered cues) : cues.Pairwise fun c d => c.start < d.start :=
  h.apart.imp_of_mem fun hc _ hcd => Nat.lt_of_lt_of_le (h.start_lt_stop _ hc) hcd

theorem stop_lt (h : Ordered cues) : cues.Pairwise fun c d => c.stop < d.stop :=
  h.apart.imp_of_mem fun _ hd hcd => Nat.lt_of_le_of_lt hcd (h.start_lt_stop _ hd)

/-- A cue is known by the offset at which it opens. -/
theorem eq_of_start_eq (h : Ordered cues) {c d : Cue} (hc : c ∈ cues) (hd : d ∈ cues)
    (he : c.start = d.start) : c = d := by
  have hs := h.start_lt
  clear h
  induction cues with
  | nil => cases hc
  | cons e cues ih =>
    obtain ⟨h1, h2⟩ := List.pairwise_cons.mp hs
    rcases List.mem_cons.mp hc with hce | hc' <;> rcases List.mem_cons.mp hd with hde | hd'
    · rw [hce, hde]
    · have := h1 d hd'
      rw [hce] at he
      omega
    · have := h1 c hc'
      rw [hde] at he
      omega
    · exact ih hc' hd' h2

end Ordered

/-! ## The crossed cues -/

theorem while_eq_filter {α : Type} {p : α → Bool} {l : List α}
    (h : l.Pairwise fun a b => p b = true → p a = true) :
    l.takeWhile p = l.filter p ∧ l.dropWhile p = l.filter fun a => !p a := by
  induction l with
  | nil => exact ⟨rfl, rfl⟩
  | cons a l ih =>
    obtain ⟨h1, h2⟩ := List.pairwise_cons.mp h
    obtain ⟨ih1, ih2⟩ := ih h2
    by_cases ha : p a = true
    · rw [List.takeWhile_cons_of_pos ha, List.dropWhile_cons_of_pos ha, ih1, ih2,
        List.filter_cons_of_pos ha, List.filter_cons_of_neg (by simp [ha])]
      exact ⟨rfl, rfl⟩
    · have hrest : ∀ b ∈ l, ¬ p b = true := fun b hb hpb => ha (h1 b hb hpb)
      rw [List.takeWhile_cons_of_neg ha, List.dropWhile_cons_of_neg ha,
        List.filter_cons_of_neg ha, List.filter_cons_of_pos (by simp [ha]), eq_comm,
        List.filter_eq_nil_iff, eq_comm, List.cons_inj_right, List.filter_eq_self]
      exact ⟨hrest, fun b hb => by simpa using hrest b hb⟩

theorem Ordered.stop_le_closed {cues : List Cue} (h : Ordered cues) (r : Nat) :
    cues.Pairwise fun c d => decide (d.stop ≤ r) = true → decide (c.stop ≤ r) = true := by
  apply h.stop_lt.imp
  intro c d hcd hd
  simp only [decide_eq_true_eq] at hd ⊢
  omega

theorem between_eq_filter {cues : List Cue} (h : Ordered cues) (low high : Nat) :
    between low high cues = cues.filter fun c => low < c.stop ∧ c.stop ≤ high := by
  unfold between
  rw [(while_eq_filter (h.stop_le_closed low)).2,
    (while_eq_filter ((h.stop_le_closed high).filter _)).1, List.filter_filter]
  apply List.filter_congr
  intro c _
  rw [Bool.eq_iff_iff]
  simp only [Bool.and_eq_true, Bool.not_eq_true', decide_eq_true_eq, decide_eq_false_iff_not]
  omega

/-! ## Firing -/

theorem isArmed_iff {t : Trigger} {c : Cue} :
    t.isArmed c = true ↔ c.start ∈ t.rearmed.offsets ∨ c.start ∉ t.fired.offsets := by
  simp only [isArmed, Bool.or_eq_true, OffsetSet.contains_eq_true, Bool.not_eq_true',
    Bool.eq_false_iff, ne_eq]

/-- What firing does to a trigger: the offsets in `starts` are fired and no longer rearmed. -/
structure Fired (t t' : Trigger) (starts : List Nat) : Prop where
  previous : t'.previous = t.previous
  fired : ∀ m, m ∈ t'.fired.offsets ↔ m ∈ t.fired.offsets ∨ m ∈ starts
  rearmed : ∀ m, m ∈ t'.rearmed.offsets ↔ m ∈ t.rearmed.offsets ∧ m ∉ starts

theorem fireAll_spec (t : Trigger) {cues : List Cue}
    (h : cues.Pairwise fun c d => c.start < d.start) :
    (t.fireAll cues).sent = cues.filter t.isArmed ∧
      Fired t (t.fireAll cues).trigger ((cues.filter t.isArmed).map (·.start)) := by
  induction cues generalizing t with
  | nil => exact ⟨rfl, rfl, by simp [fireAll], by simp [fireAll]⟩
  | cons c cues ih =>
    obtain ⟨h1, h2⟩ := List.pairwise_cons.mp h
    unfold fireAll
    split
    · rename_i hc
      obtain ⟨ih1, ih2, ih3, ih4⟩ := ih
        { t with fired := t.fired.insert c.start, rearmed := t.rearmed.erase c.start } h2
      -- firing `c` arms and disarms no other cue
      have hother : cues.filter
            ({ t with fired := t.fired.insert c.start, rearmed := t.rearmed.erase c.start } :
              Trigger).isArmed = cues.filter t.isArmed := by
        refine List.filter_congr fun d hd => ?_
        have hne : d.start ≠ c.start := Nat.ne_of_gt (h1 d hd)
        rw [Bool.eq_iff_iff, isArmed_iff, isArmed_iff]
        simp [hne]
      rw [hother] at ih1 ih3 ih4
      rw [List.filter_cons_of_pos hc]
      refine ⟨by simp only [ih1], ih2, fun m => ?_, fun m => ?_⟩
      · rw [ih3 m]
        simp only [OffsetSet.mem_insert, List.map_cons, List.mem_cons]
        rw [or_assoc, or_left_comm]
      · rw [ih4 m]
        simp only [OffsetSet.mem_erase, List.map_cons, List.mem_cons, not_or]
        rw [and_assoc]
    · rename_i hc
      rw [List.filter_cons_of_neg hc]
      exact ih t h2

theorem fireAll_count (t : Trigger) (cues : List Cue) :
    (t.fireAll cues).count = (t.fireAll cues).sent.length := by
  induction cues generalizing t with
  | nil => rfl
  | cons c cues ih =>
    unfold fireAll
    split
    · exact congrArg (· + 1) (ih _)
    · exact ih t

/-! ## The three kinds of move -/

theorem advance_count (t : Trigger) (target : Nat) (cues : List Cue) (policy : Policy) :
    (t.advance target cues policy).count = (t.advance target cues policy).sent.length := by
  unfold advance
  split
  · rfl
  · split
    · cases policy <;> rfl
    · exact fireAll_count _ _

theorem advance_first {t : Trigger} (h : t.previous = none) (target : Nat) (cues : List Cue)
    (policy : Policy) :
    t.advance target cues policy = { trigger := { t with previous := some target } } := by
  simp [advance, h]

/-- Going back fires nothing; it rearms the cues whose end is passed, if they may fire again. -/
theorem advance_back {t : Trigger} {previous target : Nat} (h : t.previous = some previous)
    (hlt : target < previous) {cues : List Cue} (hc : Ordered cues) (policy : Policy) :
    (t.advance target cues policy).sent = [] ∧
      (t.advance target cues policy).trigger.previous = some target ∧
      (t.advance target cues policy).trigger.fired = t.fired ∧
      ∀ m, m ∈ (t.advance target cues policy).trigger.rearmed.offsets ↔ m ∈ t.rearmed.offsets ∨
        (policy = .everyCrossing ∧
          ∃ c ∈ cues, (target < c.stop ∧ c.stop ≤ previous) ∧ c.start = m) := by
  simp only [advance, h, if_pos hlt]
  cases policy with
  | once => simp
  | everyCrossing =>
    refine ⟨rfl, rfl, rfl, fun m => ?_⟩
    simp only [OffsetSet.mem_foldl_insert, between_eq_filter hc, List.mem_filter,
      decide_eq_true_eq, and_assoc, true_and]

/-- Going forward fires the armed ones of the cues whose end is reached. -/
theorem advance_forward {t : Trigger} {previous target : Nat} (h : t.previous = some previous)
    (hle : previous ≤ target) {cues : List Cue} (hc : Ordered cues) (policy : Policy) :
    (t.advance target cues policy).sent =
        cues.filter (fun c => (previous < c.stop ∧ c.stop ≤ target) ∧ t.isArmed c = true) ∧
      Fired { t with previous := some target } (t.advance target cues policy).trigger
        ((t.advance target cues policy).sent.map (·.start)) := by
  have hfire := fireAll_spec { t with previous := some target }
    (hc.start_lt.filter fun c => previous < c.stop ∧ c.stop ≤ target)
  rw [← between_eq_filter hc] at hfire
  simp only [advance, h, if_neg (Nat.not_lt.mpr hle)]
  refine ⟨?_, by rw [hfire.1]; exact hfire.2⟩
  rw [hfire.1, between_eq_filter hc, List.filter_filter]
  refine List.filter_congr fun c _ => ?_
  rw [Bool.eq_iff_iff]
  simp only [Bool.and_eq_true, decide_eq_true_eq]
  exact and_comm

end Trigger

end CuedProse
