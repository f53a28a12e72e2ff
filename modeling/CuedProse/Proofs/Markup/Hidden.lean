import Mathlib.Data.List.Infix
import CuedProse.Proofs.Markup.Unfinished
import CuedProse.Proofs.Text.Pick
import CuedProse.Proofs.Visible.Rank

/-!
# What a cut hides

A text may be cut anywhere, also inside a cue. What `hideUnfinished` leaves then is a text in which
no cue of the whole is cut, and a later cut leaves more.

* `Unfinished`: what may be hidden; cut again, it stays unfinished (`Unfinished.take`).
* `hideUnfinished_cases`, `hideUnfinished_length_le`: nothing else is hidden, and no less.
* `hideUnfinished_take_mono`: a later cut leaves more of the text.
* `uncut_hideUnfinished`: a cue that the cut runs through is hidden as a whole.
* `Uncut.free_eq`: so what is left is visible where the whole text is.
-/
namespace CuedProse.Markup

/-! ## Unfinished markup -/

/-- What `lastOccurrence?` finds is an occurrence, and there is none behind it. -/
theorem lastOccurrence?_spec {mark : Text} (hmark : mark ≠ []) (t : Text) :
    (∀ k, lastOccurrence? mark t = some k →
      mark <+: t.drop k ∧ ∀ i, k < i → ¬ mark <+: t.drop i) ∧
    (lastOccurrence? mark t = none → ∀ i, ¬ mark <+: t.drop i) := by
  induction t with
  | nil =>
    have hempty : ∀ i, ¬ mark <+: ([] : Text).drop i := by
      intro i h
      rw [List.drop_nil] at h
      exact hmark (List.prefix_nil.mp h)
    refine ⟨fun k hk => ?_, fun _ => hempty⟩
    rw [lastOccurrence?, if_neg (by simpa using hmark)] at hk
    cases hk
  | cons c t ih =>
    have hrest : ∀ j, (∀ i, j ≤ i → ¬ mark <+: t.drop i) →
        ∀ i, j < i → ¬ mark <+: (c :: t).drop i := by
      intro j h i hi
      obtain ⟨m, hm⟩ : ∃ m, i = m + 1 := ⟨i - 1, by omega⟩
      rw [hm, List.drop_succ_cons]
      exact h m (by omega)
    unfold lastOccurrence?
    cases hlast : lastOccurrence? mark t with
    | some j =>
      obtain ⟨hfound, hbehind⟩ := ih.1 j hlast
      refine ⟨fun k hk => ?_, fun hk => by cases hk⟩
      cases hk
      exact ⟨hfound, hrest (j + 1) fun i hi => hbehind i hi⟩
    | none =>
      have hbehind := hrest 0 fun i _ => ih.2 hlast i
      dsimp only
      split
      · rename_i hfirst
        refine ⟨fun k hk => ?_, fun hk => by cases hk⟩
        cases hk
        exact ⟨List.isPrefixOf_iff_prefix.mp hfirst, hbehind⟩
      · rename_i hfirst
        refine ⟨fun k hk => by (cases hk), fun _ i h => ?_⟩
        cases i with
        | zero => exact hfirst (List.isPrefixOf_iff_prefix.mpr h)
        | succ i => exact hbehind (i + 1) (Nat.succ_pos i) h

/-- An end of a text that may be hidden: a first part of the opening mark, or the mark with what
follows it, if no bracket closes and no other mark opens. -/
inductive Unfinished : Text → Prop where
  | markStart {n : Nat} : 1 ≤ n → n < openingMark.length → Unfinished (openingMark.take n)
  | body {t : Text} : ']' ∉ t → (∀ i, 0 < i → ¬ openingMark <+: (openingMark ++ t).drop i) →
      Unfinished (openingMark ++ t)

theorem openingMark_ne_nil : openingMark ≠ [] := by simp [openingMark]

theorem Unfinished.take {w : Text} (h : Unfinished w) {m : Nat} (hm : 0 < m) :
    Unfinished (w.take m) := by
  cases h with
  | markStart h1 h2 =>
    rw [List.take_take]
    exact .markStart (by omega) (by omega)
  | @body t hclosed hlast =>
    by_cases hshort : m < openingMark.length
    · rw [List.take_append_of_le_length (Nat.le_of_lt hshort)]
      exact .markStart hm hshort
    · rw [List.take_append, List.take_of_length_le (by omega)]
      have hless : openingMark ++ t.take (m - openingMark.length) <+: openingMark ++ t :=
        (List.prefix_append_right_inj _).mpr (List.take_prefix _ t)
      refine .body (fun hmem => hclosed (List.mem_of_mem_take hmem)) fun i hi hfound => ?_
      exact hlast i hi (hfound.trans (hless.drop i))

/-- What a scanner holds at the end of a text is unfinished markup. -/
theorem Progress.Open.unfinished {p : Progress} (h : p.Open) : Unfinished p.written := by
  obtain ⟨t, ht, hbracket⟩ := written_eq_cons h
  cases p with
  | opening m => exact .markStart h.1 h.2
  | body read =>
    refine .body (fun hmem => (h _ (List.mem_reverse.mp hmem)).2.1 rfl) fun i hi hfound => ?_
    obtain ⟨m, hm⟩ : ∃ m, i = m + 1 := ⟨i - 1, by omega⟩
    rw [show openingMark ++ read.reverse = '[' :: t from ht, hm, List.drop_succ_cons] at hfound
    have hopen : '[' ∈ openingMark := by simp [openingMark]
    exact hbracket (List.mem_of_mem_drop (hfound.subset hopen))

/-! ## Hiding it -/

theorem hideUnfinished_prefix_self (t : Text) : hideUnfinished t <+: t := by
  obtain ⟨k, hk, -⟩ := hideUnfinished_eq_take t
  rw [hk]
  exact List.take_prefix k t

theorem hideMarkStart_cases (t : Text) :
    hideMarkStart t = t ∨ ∃ w, Unfinished w ∧ t = hideMarkStart t ++ w := by
  unfold hideMarkStart
  split
  · rename_i n hn
    right
    have hmem := List.mem_of_find?_eq_some hn
    have hsuffix := List.find?_some hn
    obtain ⟨a, ha⟩ := List.isSuffixOf_iff_suffix.mp hsuffix
    simp only [List.mem_cons, List.not_mem_nil, or_false] at hmem
    have hn : n < openingMark.length := by
      simp only [openingMark, List.length_cons, List.length_nil]
      omega
    refine ⟨openingMark.take n, .markStart (by omega) hn, ?_⟩
    rw [← ha, List.length_append, List.length_take, Nat.min_eq_left (Nat.le_of_lt hn),
      Nat.add_sub_cancel, List.take_left]
  · exact .inl rfl

theorem hideUnfinished_cases (t : Text) :
    hideUnfinished t = t ∨ ∃ w, Unfinished w ∧ t = hideUnfinished t ++ w := by
  unfold hideUnfinished
  split
  · rename_i k hk
    split
    · exact hideMarkStart_cases t
    · rename_i hclosed
      right
      obtain ⟨⟨w, hw⟩, hlast⟩ := (lastOccurrence?_spec openingMark_ne_nil t).1 k hk
      refine ⟨t.drop k, ?_, (List.take_append_drop k t).symm⟩
      rw [← hw] at hclosed ⊢
      refine .body (fun hmem => hclosed (by simp [hmem])) fun i hi hfound => ?_
      rw [hw, List.drop_drop] at hfound
      exact hlast (k + i) (by omega) hfound
  · exact hideMarkStart_cases t

theorem hideMarkStart_length_le (a : Text) {n : Nat} (h1 : 1 ≤ n) (h2 : n < openingMark.length) :
    (hideMarkStart (a ++ openingMark.take n)).length ≤ a.length := by
  have hlength : (openingMark.take n).length = n := by
    rw [List.length_take, Nat.min_eq_left (Nat.le_of_lt h2)]
  have hsuffix : ∀ m, m = n → (openingMark.take m).isSuffixOf (a ++ openingMark.take n) = true := by
    intro m hm
    rw [hm]
    exact List.isSuffixOf_iff_suffix.mpr (List.suffix_append _ _)
  rw [show openingMark.length = 5 from rfl] at h2
  unfold hideMarkStart
  split
  · rename_i m hm
    -- the longest beginning is hidden, so no shorter one than this
    have hle : n ≤ m := by
      obtain ⟨-, longer, shorter, hlist, hnot⟩ := List.find?_eq_some_iff_append.mp hm
      have hdescending : (longer ++ m :: shorter).Pairwise (· > ·) := hlist ▸ by decide
      have hn : n ∈ longer ++ m :: shorter := hlist ▸ by simp; omega
      rcases List.mem_append.mp hn with hlonger | hn
      · have := hnot n hlonger
        rw [hsuffix n rfl] at this
        cases this
      · rcases List.mem_cons.mp hn with heq | hshorter
        · exact Nat.le_of_eq heq
        · have := (List.pairwise_cons.mp (List.pairwise_append.mp hdescending).2.1).1 n hshorter
          omega
    rw [List.length_take, List.length_append, hlength]
    omega
  · rename_i hnone
    have := List.find?_eq_none.mp hnone n (by simp; omega)
    exact absurd (hsuffix n rfl) this

/-- From the last opening mark on everything is hidden, if no bracket closes behind it. -/
theorem hideUnfinished_append_mark (a : Text) {t : Text} (hclosed : ']' ∉ t)
    (hlast : ∀ i, 0 < i → ¬ openingMark <+: (openingMark ++ t).drop i) :
    hideUnfinished (a ++ (openingMark ++ t)) = a := by
  have hspec := lastOccurrence?_spec openingMark_ne_nil (a ++ (openingMark ++ t))
  have hfound : openingMark <+: (a ++ (openingMark ++ t)).drop a.length := by
    rw [List.drop_left]
    exact List.prefix_append _ _
  unfold hideUnfinished
  split
  · rename_i k hk
    obtain ⟨hmark, hbehind⟩ := hspec.1 k hk
    have hle : k ≤ a.length := by
      refine Nat.le_of_not_lt fun hlt => hlast (k - a.length) (by omega) ?_
      rwa [List.drop_append, List.drop_eq_nil_of_le (Nat.le_of_lt hlt), List.nil_append] at hmark
    have hge : a.length ≤ k := Nat.le_of_not_lt fun hlt => hbehind _ hlt hfound
    have hk' : k = a.length := Nat.le_antisymm hle hge
    have hopen : ']' ∉ openingMark := by simp [openingMark]
    have hhidden : ¬ (openingMark ++ t).contains ']' = true := by simp [hclosed, hopen]
    rw [hk', List.drop_left, if_neg hhidden, List.take_left]
  · rename_i hnone
    exact absurd hfound (hspec.2 hnone _)

theorem hideUnfinished_length_le (a : Text) {w : Text} (h : Unfinished w) :
    (hideUnfinished (a ++ w)).length ≤ a.length := by
  cases h with
  | @markStart n h1 h2 =>
    unfold hideUnfinished
    split
    · rename_i k hk
      split
      · exact hideMarkStart_length_le a h1 h2
      · -- a whole mark does not fit behind `a`
        have hfits := ((lastOccurrence?_spec openingMark_ne_nil _).1 k hk).1.length_le
        rw [List.length_drop, List.length_append, List.length_take] at hfits
        rw [List.length_take]
        omega
    · exact hideMarkStart_length_le a h1 h2
  | body hclosed hlast =>
    exact Nat.le_of_eq (congrArg List.length (hideUnfinished_append_mark a hclosed hlast))

theorem hideUnfinished_take_mono (t : Text) {j k : Nat} (hjk : j ≤ k) :
    hideUnfinished (t.take j) <+: hideUnfinished (t.take k) := by
  have hj := (hideUnfinished_prefix_self (t.take j)).trans (List.take_prefix j t)
  have hk := (hideUnfinished_prefix_self (t.take k)).trans (List.take_prefix k t)
  refine List.prefix_of_prefix_length_le hj hk ?_
  have hshort := (hideUnfinished_prefix_self (t.take j)).length_le
  rw [List.length_take] at hshort
  rcases hideUnfinished_cases (t.take k) with hall | ⟨w, hw, hsplit⟩
  · rw [hall, List.length_take]
    omega
  · generalize hideUnfinished (t.take k) = a at hsplit
    by_cases hja : j ≤ a.length
    · omega
    · have htake : t.take j = a ++ w.take (j - a.length) := by
        have := congrArg (List.take j) hsplit
        rwa [List.take_take, Nat.min_eq_left hjk, List.take_append,
          List.take_of_length_le (show a.length ≤ j by omega)] at this
      rw [htake]
      exact hideUnfinished_length_le a (hw.take (by omega))

/-! ## Cues at a cut -/

/-- No cue of `t` is cut at the offset `n`. -/
def Uncut (t : Text) (n : Nat) : Prop := ∀ c ∈ cues t, c.stop ≤ n ∨ n ≤ c.start

theorem Uncut.take {t : Text} {n : Nat} (h : Uncut t n) (m : Nat) : Uncut (t.take m) n := by
  intro c hc
  rw [cues_take] at hc
  exact h c (List.mem_filter.mp hc).1

/-- A cue that a cut runs through is hidden as a whole, and every other one is not touched. -/
theorem uncut_hideUnfinished (t : Text) (k : Nat) :
    Uncut t (hideUnfinished (t.take k)).length := by
  intro c hc
  by_cases hk : c.stop ≤ k
  · left
    refine stop_le_length ?_
    rw [cues_hideUnfinished, cues_take]
    exact List.mem_filter.mpr ⟨hc, by simpa using hk⟩
  · right
    obtain ⟨before, body, rest, ht, hbody, hcue⟩ := (mem_cues_iff t c).mp hc
    obtain ⟨hstart, hstop, -⟩ := cueOfBody?_place hcue
    have hopen : (Progress.body body.reverse).Open :=
      fun x hx => hbody x (List.mem_reverse.mp hx)
    have hwritten : (Progress.body body.reverse).written = openingMark ++ body := by
      simp [Progress.written]
    rw [hstart]
    by_cases hbefore : k ≤ before.length
    · have := (hideUnfinished_prefix_self (t.take k)).length_le
      rw [List.length_take] at this
      omega
    · -- the cut is behind the opening bracket and before the closing one
      have htake : t.take k = before ++ (openingMark ++ body).take (k - before.length) := by
        rw [ht, List.append_assoc before, List.append_assoc before, List.take_append,
          List.take_of_length_le (by omega), List.take_append_of_le_length]
        rw [List.length_append]
        omega
      rw [htake, ← hwritten]
      exact hideUnfinished_length_le before (hopen.unfinished.take (by omega))

def free (t : Text) : Nat → Bool := Span.isFree ((cues t).map fun c => ⟨c.start, c.stop⟩)

theorem free_eq_true {t : Text} {o : Nat} :
    free t o = true ↔ ∀ c ∈ cues t, c.start ≤ o → c.stop ≤ o := by
  rw [free, Span.isFree_eq_true]
  constructor
  · intro h c hc hstart
    refine Nat.le_of_not_lt fun hlt => h ⟨_, List.mem_map_of_mem hc, hstart, hlt⟩
  · intro h ⟨s, hs, hstart, hstop⟩
    obtain ⟨c, hc, hcs⟩ := List.mem_map.mp hs
    rw [← hcs] at hstart hstop
    exact absurd (h c hc hstart) (Nat.not_le.mpr hstop)

theorem Uncut.free_eq {t : Text} {n : Nat} (h : Uncut t n) {o : Nat} (ho : o < n) :
    free (t.take n) o = free t o := by
  rw [Bool.eq_iff_iff, free_eq_true, free_eq_true, cues_take]
  constructor
  · intro hfree c hc hstart
    rcases h c hc with hstop | hbehind
    · exact hfree c (List.mem_filter.mpr ⟨hc, by simpa using hstop⟩) hstart
    · omega
  · intro hfree c hc hstart
    exact hfree c (List.mem_filter.mp hc).1 hstart

theorem Uncut.pick_free {t u : Text} (h : Uncut u t.length) (hle : t <+: u) :
    Text.pick (free t) 0 t = Text.pick (free u) 0 t := by
  refine Text.pick_congr fun o ho => ?_
  have hfree := h.free_eq ho
  rw [← List.prefix_iff_eq_take.mp hle] at hfree
  rw [Nat.zero_add, hfree]

end CuedProse.Markup
