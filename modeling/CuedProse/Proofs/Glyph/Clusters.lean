import CuedProse.Glyph.Cluster

/-!
# What a cluster may hold

Clusters only cut a text, they change nothing in it. A bracket is no mark, so one would think that
it always stands alone; but a prepended mark takes whatever follows it into its cluster.

* `clusters_flatten`: the clusters give the text back.
* `joins_iff_last_leading`: a character of no special class goes on with a cluster only behind a
  prepended mark, and so does a prepended mark itself.
* `clusters_bracketed`: hence only prepended marks stand before a closing bracket in its cluster.
* `splitAtLetter?_clusters`, `splitAtLetter?_spec`: the first letter with its cluster, and what is
  before and behind it.
-/
namespace CuedProse.Glyph

namespace RangeTable

/-- No code point is in both tables. -/
def Apart (t u : RangeTable) : Prop :=
  ∀ r ∈ t.ranges, ∀ s ∈ u.ranges, r.2 < s.1 ∨ s.2 < r.1

instance (t u : RangeTable) : Decidable (Apart t u) :=
  inferInstanceAs (Decidable (∀ r ∈ t.ranges, ∀ s ∈ u.ranges, r.2 < s.1 ∨ s.2 < r.1))

theorem Apart.contains_eq_false {t u : RangeTable} (h : t.Apart u) {c : Char}
    (hc : t.contains c = true) : u.contains c = false := by
  rw [Bool.eq_false_iff]
  intro hu
  obtain ⟨r, hr, h1, h2⟩ := (t.contains_iff c).mp hc
  obtain ⟨s, hs, h3, h4⟩ := (u.contains_iff c).mp hu
  have := h r hr s hs
  omega

end RangeTable

/-! ## Prepended marks -/

theorem ite_ne {p : Prop} [Decidable p] {a b x : Break} (ha : a ≠ x) (hb : b ≠ x) :
    (if p then a else b) ≠ x := by
  split
  · exact ha
  · exact hb

theorem leading_contains {c : Char} (h : Break.ofChar c = .leading) :
    leadingMarks.contains c = true := by
  cases hc : leadingMarks.contains c with
  | true => rfl
  | false =>
    refine absurd h ?_
    unfold Break.ofChar syllableBreak
    simp only [hc, Bool.false_eq_true, if_false]
    repeat' apply ite_ne
    all_goals simp

theorem leading_apart_consonants : leadingMarks.Apart conjunctConsonants := by decide +kernel

theorem leading_apart_pictographs : leadingMarks.Apart pictographs := by decide +kernel

/-- A character that no special rule asks for goes on with a cluster only behind a prepended
mark. -/
theorem joins_iff_last_leading {c : Char}
    (hclass : Break.ofChar c = .other ∨ Break.ofChar c = .leading)
    (hconsonant : isConjunctConsonant c = false) (hpictograph : isPictograph c = false)
    (x : Context) : x.joins c = true ↔ x.last = .leading := by
  unfold Context.joins
  rw [hconsonant, hpictograph]
  rcases hclass with hclass | hclass <;> rw [hclass] <;> cases x.last <;> simp

theorem joins_bracket (x : Context) : x.joins ']' = true ↔ x.last = .leading :=
  joins_iff_last_leading (.inl (by decide)) (by decide) (by decide) x

theorem joins_leading {c : Char} (h : Break.ofChar c = .leading) (x : Context) :
    x.joins c = true ↔ x.last = .leading :=
  joins_iff_last_leading (.inr h)
    (leading_apart_consonants.contains_eq_false (leading_contains h))
    (leading_apart_pictographs.contains_eq_false (leading_contains h)) x

/-! ## Clusters -/

/-- Before a closing bracket there are prepended marks only. -/
def Bracketed (g : Text) : Prop :=
  ∀ a b, g = a ++ ']' :: b → ∀ c ∈ a, Break.ofChar c = .leading

/-- A cluster in progress, last character first, and what the rules remember of it. -/
structure Growing (x : Context) (started : Text) : Prop where
  bracketed : Bracketed started.reverse
  leading : x.last = .leading → ∀ c ∈ started, Break.ofChar c = .leading

namespace Growing

theorem single {x : Context} {c : Char} (hx : x.last = Break.ofChar c) : Growing x [c] := by
  refine ⟨fun a b hab d hd => ?_, fun h d hd => ?_⟩
  · cases a with
    | nil => cases hd
    | cons e a => simp at hab
  · rw [List.mem_singleton.mp hd, ← hx, h]

/-- A bracket goes on with a cluster of prepended marks, and so does a prepended mark; no other
character changes what stands before the brackets. -/
theorem snoc {x : Context} {started : Text} (h : Growing x started) {c : Char}
    (hj : x.joins c = true) : Growing (x.next c) (c :: started) := by
  refine ⟨fun a b hab d hd => ?_, fun hlast d hd => ?_⟩
  · rw [List.reverse_cons] at hab
    rcases List.eq_nil_or_concat b with hb | ⟨b', e, hb⟩
    · -- the bracket is the character that joins
      rw [hb] at hab
      obtain ⟨hstarted, hc⟩ := List.append_inj' hab rfl
      cases hc
      refine h.leading ((joins_bracket x).mp hj) d ?_
      rw [← List.mem_reverse, hstarted]
      exact hd
    · rw [hb, List.concat_eq_append, ← List.cons_append, ← List.append_assoc] at hab
      obtain ⟨hstarted, -⟩ := List.append_inj' hab rfl
      exact h.bracketed a b' hstarted d hd
  · have hc : Break.ofChar c = .leading := hlast
    rcases List.mem_cons.mp hd with hd | hd
    · rw [hd, hc]
    · exact h.leading ((joins_leading hc x).mp hj) d hd

end Growing

theorem clustersFrom_bracketed {x : Context} {started t : Text} (h : Growing x started) {g : Text}
    (hg : g ∈ clustersFrom x started t) : Bracketed g := by
  induction t generalizing x started with
  | nil =>
    rw [clustersFrom, List.mem_singleton] at hg
    rw [hg]
    exact h.bracketed
  | cons c t ih =>
    unfold clustersFrom at hg
    split at hg
    · rename_i hj
      exact ih (h.snoc hj) hg
    · rcases List.mem_cons.mp hg with hg | hg
      · rw [hg]
        exact h.bracketed
      · exact ih (.single rfl) hg

theorem clusters_bracketed {t g : Text} (hg : g ∈ clusters t) : Bracketed g := by
  cases t with
  | nil => cases hg
  | cons c t => exact clustersFrom_bracketed (.single rfl) hg

theorem clustersFrom_flatten (x : Context) (started t : Text) :
    (clustersFrom x started t).flatten = started.reverse ++ t := by
  induction t generalizing x started with
  | nil => simp [clustersFrom]
  | cons c t ih =>
    unfold clustersFrom
    split
    · rw [ih, List.reverse_cons, List.append_assoc, List.singleton_append]
    · rw [List.flatten_cons, ih]
      rfl

theorem clusters_flatten (t : Text) : (clusters t).flatten = t := by
  cases t with
  | nil => rfl
  | cons c t => exact clustersFrom_flatten _ [c] t

/-! ## The first letter -/

/-- What a letter cluster is like: it begins with a letter, and before a closing bracket there are
prepended marks only. -/
structure IsLetterGlyph (g : Text) : Prop where
  letter : isLetterCluster g = true
  bracketed : Bracketed g

/-- The clusters at a split: those before the glyph are no letters. -/
theorem splitAtLetter?_clusters {t : Text} {s : LetterSplit} (h : splitAtLetter? t = some s) :
    ∃ before after, clusters t = before ++ s.glyph :: after ∧ s.before = before.flatten ∧
      s.after = after.flatten ∧ (∀ g ∈ before, isLetterCluster g = false) ∧
      isLetterCluster s.glyph = true := by
  unfold splitAtLetter? at h
  dsimp only at h
  split at h
  · cases h
  · rename_i g rest hdrop
    cases h
    have hsplit := List.takeWhile_append_dropWhile (p := fun g => !isLetterCluster g)
      (l := clusters t)
    have hletter := List.head?_dropWhile_not (fun g => !isLetterCluster g) (clusters t)
    rw [hdrop] at hsplit hletter
    refine ⟨_, rest, hsplit.symm, rfl, rfl, fun g hg => ?_, by simpa using hletter⟩
    have := List.all_eq_true.mp List.all_takeWhile g hg
    simpa using this

theorem isLetterCluster_of_splitAtLetter?_none {t : Text} (h : splitAtLetter? t = none) :
    ∀ g ∈ clusters t, isLetterCluster g = false := by
  unfold splitAtLetter? at h
  dsimp only at h
  split at h
  · rename_i hdrop
    intro g hg
    rw [← List.takeWhile_append_dropWhile (p := fun g => !isLetterCluster g) (l := clusters t),
      hdrop, List.append_nil] at hg
    have := List.all_eq_true.mp List.all_takeWhile g hg
    simpa using this
  · cases h

theorem splitAtLetter?_spec {t : Text} {s : LetterSplit} (h : splitAtLetter? t = some s) :
    t = s.before ++ s.glyph ++ s.after ∧ IsLetterGlyph s.glyph := by
  obtain ⟨before, after, hclusters, hbefore, hafter, -, hletter⟩ := splitAtLetter?_clusters h
  have hflat := congrArg List.flatten hclusters
  rw [clusters_flatten, List.flatten_append, List.flatten_cons, ← hbefore, ← hafter,
    ← List.append_assoc] at hflat
  have hmem : s.glyph ∈ clusters t := hclusters ▸ by simp
  exact ⟨hflat, hletter, clusters_bracketed hmem⟩

end CuedProse.Glyph
