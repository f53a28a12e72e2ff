import Mathlib.Data.List.TakeWhile
import CuedProse.Proofs.Glyph.Clusters

/-!
# The clusters of a growing text

The rules look only back. So when a text goes on, all its clusters stay but the last one, which may
take more characters in; and a text that has a letter keeps it.

* `clusters_append`: what is behind a text changes its last cluster only.
* `glyph_splitAtLetter?`: the glyph of a split is the first letter cluster.
* `splitAtLetter?_append`: a longer text is split at the same letter, with perhaps more marks.
* `splitAtLetter?_eq_none`: white space is no letter.
-/
namespace CuedProse.Glyph

theorem clustersFrom_head (x : Context) (started t : Text) :
    ∃ g rest, clustersFrom x started t = g :: rest ∧ started.reverse <+: g := by
  induction t generalizing x started with
  | nil => exact ⟨started.reverse, [], rfl, List.prefix_rfl⟩
  | cons c t ih =>
    unfold clustersFrom
    split
    · obtain ⟨g, rest, hclusters, hstarted⟩ := ih (x.next c) (c :: started)
      refine ⟨g, rest, hclusters, List.IsPrefix.trans ?_ hstarted⟩
      rw [List.reverse_cons]
      exact List.prefix_append _ _
    · exact ⟨started.reverse, _, rfl, List.prefix_rfl⟩

theorem clustersFrom_append (x : Context) (started t u : Text) :
    ∃ gs g h rest, clustersFrom x started t = gs ++ [g] ∧
      clustersFrom x started (t ++ u) = gs ++ h :: rest ∧ g <+: h := by
  induction t generalizing x started with
  | nil =>
    obtain ⟨h, rest, hclusters, hstarted⟩ := clustersFrom_head x started u
    exact ⟨[], started.reverse, h, rest, rfl, hclusters, hstarted⟩
  | cons c t ih =>
    rw [List.cons_append]
    unfold clustersFrom
    split
    · exact ih (x.next c) (c :: started)
    · obtain ⟨gs, g, h, rest, ht, htu, hgh⟩ := ih (x.next c) [c]
      exact ⟨started.reverse :: gs, g, h, rest, by rw [ht, List.cons_append],
        by rw [htu, List.cons_append], hgh⟩

/-- What is behind a text changes its last cluster only, and that one only grows. -/
theorem clusters_append {t : Text} (ht : t ≠ []) (u : Text) :
    ∃ gs g h rest, clusters t = gs ++ [g] ∧ clusters (t ++ u) = gs ++ h :: rest ∧ g <+: h := by
  cases t with
  | nil => exact absurd rfl ht
  | cons c t => exact clustersFrom_append (Context.first c) [c] t u

/-! ## The first letter -/

theorem glyph_splitAtLetter? (t : Text) :
    (splitAtLetter? t).map LetterSplit.glyph = (clusters t).find? isLetterCluster := by
  rw [List.find?_eq_head?_dropWhile_not]
  unfold splitAtLetter?
  dsimp only
  split <;> rename_i hdrop <;> rw [hdrop] <;> rfl

theorem isLetterCluster_eq_true {g : Text} :
    isLetterCluster g = true ↔ ∃ c rest, g = c :: rest ∧ isLetter c = true := by
  cases g <;> simp [isLetterCluster]

/-- Only the first character of a cluster makes it a letter, so it stays one when it grows. -/
theorem isLetterCluster_of_le {g h : Text} (hgh : g <+: h) (hg : isLetterCluster g = true) :
    isLetterCluster h = true := by
  obtain ⟨c, rest, hcons, hc⟩ := isLetterCluster_eq_true.mp hg
  obtain ⟨u, hu⟩ := hgh
  rw [hcons, List.cons_append] at hu
  exact isLetterCluster_eq_true.mpr ⟨c, _, hu.symm, hc⟩

/-- A longer text is split at the same letter, which may have more marks there. -/
theorem splitAtLetter?_append {t : Text} {s : LetterSplit} (h : splitAtLetter? t = some s)
    (u : Text) :
    ∃ s', splitAtLetter? (t ++ u) = some s' ∧ s.glyph <+: s'.glyph := by
  have hfirst := glyph_splitAtLetter? t
  have hlonger := glyph_splitAtLetter? (t ++ u)
  rw [h, Option.map_some] at hfirst
  have ht : t ≠ [] := fun hnil => by rw [hnil] at h; cases h
  obtain ⟨gs, g, g', rest, hclusters, happend, hgrows⟩ := clusters_append ht u
  rw [hclusters, List.find?_append] at hfirst
  rw [happend, List.find?_append] at hlonger
  have hsplit : ∀ {letter : Text}, s.glyph <+: letter →
      (splitAtLetter? (t ++ u)).map LetterSplit.glyph = some letter →
      ∃ s', splitAtLetter? (t ++ u) = some s' ∧ s.glyph <+: s'.glyph := by
    intro letter hletter hmap
    obtain ⟨s', hs', hglyph⟩ := Option.map_eq_some_iff.mp hmap
    exact ⟨s', hs', hglyph ▸ hletter⟩
  cases hgs : gs.find? isLetterCluster with
  | some letter =>
    -- the letter stands before the last cluster
    rw [hgs, Option.some_or, Option.some.injEq] at hfirst
    rw [hgs, Option.some_or] at hlonger
    exact hsplit (hfirst ▸ List.prefix_rfl) hlonger
  | none =>
    rw [hgs, Option.none_or] at hfirst hlonger
    have hg : g = s.glyph := (List.mem_singleton.mp (List.mem_of_find?_eq_some hfirst.symm)).symm
    have hletter : isLetterCluster g' = true :=
      isLetterCluster_of_le hgrows (hg ▸ List.find?_some hfirst.symm)
    rw [List.find?_cons_of_pos hletter] at hlonger
    exact hsplit (hg ▸ hgrows) hlonger

/-! ## White space -/

theorem white_apart_alphabetic : whiteSpace.Apart alphabetic := by decide +kernel

theorem isLetter_of_isSpace {c : Char} (h : isSpace c = true) : isLetter c = false :=
  white_apart_alphabetic.contains_eq_false h

theorem splitAtLetter?_eq_none {t : Text} (h : ∀ c ∈ t, isSpace c = true) :
    splitAtLetter? t = none := by
  cases hs : splitAtLetter? t with
  | none => rfl
  | some s =>
    obtain ⟨ht, hglyph⟩ := splitAtLetter?_spec hs
    obtain ⟨c, rest, hcons, hletter⟩ := isLetterCluster_eq_true.mp hglyph.letter
    have hmem : c ∈ t := by simp [ht, hcons]
    rw [isLetter_of_isSpace (h c hmem)] at hletter
    cases hletter

end CuedProse.Glyph
