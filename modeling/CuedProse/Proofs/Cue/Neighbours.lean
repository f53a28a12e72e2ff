import CuedProse.Proofs.Cue.Blocks
import CuedProse.Proofs.Line.Prose

/-!
# Neighbours in a group

Grouping goes through the cues once, with a reader that goes through the text once. What it comes to
can be said of two neighbouring cues at a time, also of cues that touch, are empty or overlap.

* `BlankBetween`: nothing but white space stands between two cues, and they do not overlap.
* `Together`: neighbouring cues are in the same group.
* `together_iff`: in groups that end where neighbours do not belong together, and only there,
  neighbours are in the same group if they belong together.
* `gather_neighbours`: two neighbours share a group if and only if the text between them is blank,
  and the groups of a text are its longest blank-separated runs of cues.
-/
namespace CuedProse

/-- Nothing but white space stands in the text between two cues, the first of which has ended. -/
def BlankBetween (t : Text) (c d : Cue) : Prop :=
  c.stop ≤ d.start ∧ ∀ x ∈ Text.slice t c.stop d.start, Glyph.isSpace x = true

namespace Group

theorem joined_eq_true (t : Text) (c d : Cue) : joined t c d = true ↔ BlankBetween t c d := by
  simp [joined, BlankBetween]

/-! ## Neighbours by position -/

/-- Of the cues of `groups`, those numbered `i` and `i + 1` are in the same group. -/
def Together (groups : List Group) (i : Nat) : Prop :=
  ∃ before g after, groups = before ++ g :: after ∧
    (allCues before).length ≤ i ∧ i + 1 < (allCues before).length + g.cues.length

theorem together_cons (g : Group) (groups : List Group) (i : Nat) :
    Together (g :: groups) i ↔
      i + 1 < g.cues.length ∨ g.cues.length ≤ i ∧ Together groups (i - g.cues.length) := by
  constructor
  · rintro ⟨before, h, after, hsplit, hle, hlt⟩
    rcases List.cons_eq_append_iff.mp hsplit with ⟨rfl, hsplit⟩ | ⟨before, rfl, rfl⟩
    · obtain ⟨rfl, -⟩ := List.cons.inj hsplit
      exact .inl (by simpa using hlt)
    · rw [allCues_cons, List.length_append] at hle hlt
      exact .inr ⟨by omega, before, h, after, rfl, by omega, by omega⟩
  · rintro (hlt | ⟨hle, before, h, after, rfl, hle', hlt⟩)
    · exact ⟨[], g, groups, rfl, Nat.zero_le i, by simpa using hlt⟩
    · refine ⟨g :: before, h, after, rfl, ?_, ?_⟩ <;> rw [allCues_cons, List.length_append] <;>
        omega

variable {joins : Cue → Cue → Bool}

/-- If the neighbours in a group belong together, and the last cue of a group and the first of the
next do not, then neighbours are in the same group if and only if they belong together. -/
theorem together_iff {groups : List Group}
    (hgroups : ∀ g ∈ groups, g.cues.IsChain (joins · ·))
    (hapart : groups.IsChain fun g h => joins g.last h.first = false) {i : Nat} {c d : Cue}
    (hc : (allCues groups)[i]? = some c) (hd : (allCues groups)[i + 1]? = some d) :
    Together groups i ↔ joins c d = true := by
  induction groups generalizing i with
  | nil => cases hc
  | cons g groups ih =>
    obtain ⟨hg, hgroups⟩ := List.forall_mem_cons.mp hgroups
    rw [allCues_cons] at hc hd
    rw [together_cons]
    rcases Nat.lt_trichotomy (i + 1) g.cues.length with hin | hend | hbehind
    · -- both are in the first group
      rw [List.getElem?_append_left (by omega), List.getElem?_eq_some_iff] at hc
      rw [List.getElem?_append_left hin, List.getElem?_eq_some_iff] at hd
      obtain ⟨hi, rfl⟩ := hc
      obtain ⟨hi', rfl⟩ := hd
      exact iff_of_true (.inl hin) (List.isChain_iff_getElem.mp hg i hi')
    · -- the first group ends between the two
      have hlast : c = g.last := by
        rw [List.getElem?_append_left (by omega)] at hc
        have hget := g.getLast?_cues
        rw [List.getLast?_eq_getElem?, ← hend, Nat.add_sub_cancel, hc] at hget
        exact Option.some.inj hget
      rw [List.getElem?_append_right (by omega), ← hend, Nat.sub_self] at hd
      cases groups with
      | nil => cases hd
      | cons h groups =>
        have hfirst : h.first = d := Option.some.inj hd
        have hnot := (List.isChain_cons_cons.mp hapart).1
        rw [← hlast, hfirst] at hnot
        rw [hnot]
        refine iff_of_false ?_ (by decide)
        omega
    · -- both are behind it
      rw [List.getElem?_append_right (by omega)] at hc hd
      rw [show i + 1 - g.cues.length = i - g.cues.length + 1 by omega] at hd
      rw [← ih hgroups hapart.of_cons hc hd]
      constructor
      · rintro (hin | ⟨-, htogether⟩)
        · omega
        · exact htogether
      · exact fun htogether => .inr ⟨by omega, htogether⟩

/-- **Which cues share a group.** Cues of a text that are ordered by their start, even if they
touch, are empty or overlap, are all grouped, in order and in groups that are not empty; and two
neighbours are in the same group if and only if the first ends before the second begins and the text
between them is blank. So the groups of the cues in a text are its longest runs of blank-separated
cues. -/
theorem gather_neighbours (t : Text) :
    (∀ cues : List Cue, (cues.Pairwise fun c d => c.start ≤ d.start) → (∀ c ∈ cues, c.Inside t) →
      allCues (gather t cues) = cues ∧ (∀ g ∈ gather t cues, g.cues ≠ []) ∧
        ∀ i c d, cues[i]? = some c → cues[i + 1]? = some d →
          (Together (gather t cues) i ↔ BlankBetween t c d)) ∧
      allCues (Markup.groups t) = Markup.cues t ∧
      (∀ g ∈ Markup.groups t, g.cues.IsChain (BlankBetween t)) ∧
      (Markup.groups t).IsChain fun g h => ¬ BlankBetween t g.last h.first := by
  have hcues := Markup.cues_start_le t
  have hinside : ∀ c ∈ Markup.cues t, c.Inside t := fun c hc => Markup.inside_of_mem hc
  refine ⟨fun cues hordered hin => ?_, gather_cues t _, fun g hg => ?_, ?_⟩
  · refine ⟨gather_cues t cues, fun g _ => List.cons_ne_nil _ _, fun i c d hc hd => ?_⟩
    rw [← gather_cues t cues] at hc hd
    rw [← joined_eq_true]
    exact together_iff (gather_isChain hordered hin) (gather_apart hordered hin) hc hd
  · exact (gather_isChain hcues hinside g hg).imp fun c d => (joined_eq_true t c d).mp
  · refine (gather_apart hcues hinside).imp fun g h hnot hblank => ?_
    rw [(joined_eq_true t _ _).mpr hblank] at hnot
    cases hnot

/-- The second cue lies inside the first, so they share no group. The third is empty and touches the
cues on either side, the fifth stands behind white space, and the last behind a letter. -/
theorem gather_neighbours_of_overlapping :
    let t : Text := "abcde \tf".toList
    let cue : Nat → Nat → Cue := fun start stop => ⟨.vfx, ['x'], {}, start, stop, []⟩
    let cues := [cue 0 5, cue 1 3, cue 3 3, cue 3 5, cue 7 7, cue 8 8]
    (cues.Pairwise fun c d => c.start ≤ d.start) ∧ (∀ c ∈ cues, c.Inside t) ∧
      (allCues (gather t cues)).length = 6 ∧
      ¬ Together (gather t cues) 0 ∧ Together (gather t cues) 1 ∧ Together (gather t cues) 2 ∧
      Together (gather t cues) 3 ∧ ¬ Together (gather t cues) 4 := by
  intro t cue cues
  have hordered : cues.Pairwise fun c d => c.start ≤ d.start := by simp [cues, cue]
  have hinside : ∀ c ∈ cues, c.Inside t := by
    simp only [cues, List.forall_mem_cons]
    refine ⟨⟨?_, ?_⟩, ⟨?_, ?_⟩, ⟨?_, ?_⟩, ⟨?_, ?_⟩, ⟨?_, ?_⟩, ⟨?_, ?_⟩, nofun⟩ <;> decide
  obtain ⟨hall, -, hshare⟩ := (gather_neighbours t).1 cues hordered hinside
  refine ⟨hordered, hinside, by rw [hall]; rfl, ?_, ?_, ?_, ?_, ?_⟩
  · rw [hshare 0 _ _ rfl rfl, ← joined_eq_true]
    decide
  · rw [hshare 1 _ _ rfl rfl, ← joined_eq_true]
    decide
  · rw [hshare 2 _ _ rfl rfl, ← joined_eq_true]
    decide
  · rw [hshare 3 _ _ rfl rfl, ← joined_eq_true]
    decide
  · rw [hshare 4 _ _ rfl rfl, ← joined_eq_true]
    decide

end Group

end CuedProse
