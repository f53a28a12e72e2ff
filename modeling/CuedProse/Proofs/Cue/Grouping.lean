import CuedProse.Cue.Group
import CuedProse.Proofs.Text.Pick

/-!
# Grouping cue by cue

The reader of gaps goes through a text once, and what it answers depends on how far it has come. On
cues that are ordered by their start it is never ahead of the gap that is asked for.

* `joined`: two cues belong together if only white space stands between them.
* `runs`: the groups that a test on neighbours gives, without a reader.
* `gather_eq_runs`: grouping ordered cues of a text is this, with the test `joined`.
-/
namespace CuedProse

namespace Cue

structure Inside (t : Text) (c : Cue) : Prop where
  start_le : c.start ≤ c.stop
  stop_le : c.stop ≤ t.length

end Cue

namespace GapReader

/-- The reader has read the characters of `t` up to its position. -/
structure Reads (r : GapReader) (t : Text) : Prop where
  rest : r.rest = t.drop r.position
  position_le : r.position ≤ t.length

theorem reads_ofText (t : Text) : (ofText t).Reads t := ⟨rfl, Nat.zero_le _⟩

/-- A gap that begins where the reader is, or later, is read as it stands in the text. -/
theorem Reads.gap {r : GapReader} {t : Text} (h : r.Reads t) {start stop : Nat}
    (hr : r.position ≤ start) (hs : start ≤ stop) (ht : stop ≤ t.length) :
    r.gap start stop = ((Text.slice t start stop).all Glyph.isSpace, ⟨stop, t.drop stop⟩) := by
  have hrest : r.rest.drop (start - r.position) = t.drop start := by
    rw [h.rest, List.drop_drop]
    congr 1
    omega
  have hposition : r.position + (start - r.position) = start := by omega
  have hwanted : start + (stop - start) = stop := by omega
  have hlength : ¬ r.rest.length < start - r.position := by
    rw [h.rest, List.length_drop]
    omega
  have hlength' : ¬ (t.drop start).length < stop - start := by
    rw [List.length_drop]
    omega
  have hslice : (t.drop start).take (stop - start) = Text.slice t start stop := by
    rw [Text.slice, List.drop_take]
  simp only [GapReader.gap, if_neg hlength, hrest, hposition, if_neg hlength', hslice,
    List.drop_drop, hwanted]

end GapReader

namespace Group

@[simp] theorem last_push (g : Group) (c : Cue) : (g.push c).last = c := by
  simp [push, last]

@[simp] theorem start_push (g : Group) (c : Cue) : (g.push c).start = g.start := rfl

/-- Only white space stands between the two cues. -/
def joined (t : Text) (c d : Cue) : Bool :=
  decide (c.stop ≤ d.start) && (Text.slice t c.stop d.start).all Glyph.isSpace

/-- Continues the group `g` with `cues`; a cue joins the group before it if `joins` says so of the
last cue of that group. -/
def runs (joins : Cue → Cue → Bool) (g : Group) : List Cue → List Group
  | [] => [g]
  | c :: cues =>
    if joins g.last c then runs joins (g.push c) cues else g :: runs joins ⟨c, []⟩ cues

theorem runs_eq_cons (joins : Cue → Cue → Bool) (g : Group) (cues : List Cue) :
    ∃ h rest, runs joins g cues = h :: rest ∧ h.start = g.start := by
  induction cues generalizing g with
  | nil => exact ⟨g, [], rfl, rfl⟩
  | cons c cues ih =>
    unfold runs
    split
    · obtain ⟨h, rest, hruns, hstart⟩ := ih (g.push c)
      exact ⟨h, rest, hruns, hstart⟩
    · exact ⟨g, _, rfl, rfl⟩

variable {t : Text}

theorem gatherFrom_eq_runs {r : GapReader} {g : Group} {cues : List Cue} (hr : r.Reads t)
    (hlast : r.position ≤ g.last.start) (hg : g.last.Inside t)
    (hordered : (g.last :: cues).Pairwise fun c d => c.start ≤ d.start)
    (hinside : ∀ c ∈ cues, c.Inside t) :
    gatherFrom r g cues = runs (joined t) g cues := by
  induction cues generalizing r g with
  | nil => rfl
  | cons c cues ih =>
    obtain ⟨hfirst, hrest⟩ := List.pairwise_cons.mp hordered
    have hgc : g.last.start ≤ c.start := hfirst c (List.mem_cons_self ..)
    have hc : c.Inside t := hinside c (List.mem_cons_self ..)
    have hcues : ∀ d ∈ cues, d.Inside t := fun d hd => hinside d (List.mem_cons_of_mem _ hd)
    unfold gatherFrom runs
    split
    · rename_i hle
      have hstop : g.stop = g.last.stop := rfl
      have hread := hr.gap (Nat.le_trans hlast hg.start_le) hle (Nat.le_trans hc.start_le hc.stop_le)
      have hnext : (⟨c.start, t.drop c.start⟩ : GapReader).Reads t :=
        ⟨rfl, Nat.le_trans hc.start_le hc.stop_le⟩
      have hjoined : joined t g.last c = (Text.slice t g.stop c.start).all Glyph.isSpace := by
        rw [joined, ← hstop, decide_eq_true hle, Bool.true_and]
      rw [hstop] at hjoined
      rw [hjoined, hstop, hread]
      cases (Text.slice t g.last.stop c.start).all Glyph.isSpace with
      | true =>
        rw [if_pos rfl]
        refine ih hnext ?_ ?_ ?_ hcues
        · exact Nat.le_of_eq (by rw [last_push])
        · rwa [last_push]
        · rwa [last_push]
      | false =>
        rw [if_neg (by decide)]
        exact congrArg _ (ih (g := ⟨c, []⟩) hnext (Nat.le_refl _) hc hrest hcues)
    · rename_i hgt
      have hjoined : joined t g.last c = false := by
        rw [joined, show decide (g.last.stop ≤ c.start) = false from decide_eq_false hgt,
          Bool.false_and]
      rw [hjoined, if_neg (by decide)]
      exact congrArg _ (ih (g := ⟨c, []⟩) hr (Nat.le_trans hlast hgc) hc hrest hcues)

/-- Ordered cues of a text are grouped by what stands between neighbours. -/
theorem gather_eq_runs {c : Cue} {cues : List Cue}
    (hordered : (c :: cues).Pairwise fun c d => c.start ≤ d.start)
    (hinside : ∀ d ∈ c :: cues, d.Inside t) :
    gather t (c :: cues) = runs (joined t) ⟨c, []⟩ cues :=
  gatherFrom_eq_runs (GapReader.reads_ofText t) (Nat.zero_le _) (hinside c (List.mem_cons_self ..))
    hordered fun d hd => hinside d (List.mem_cons_of_mem _ hd)

end Group

end CuedProse
