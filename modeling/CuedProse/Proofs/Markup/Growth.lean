import CuedProse.Proofs.Line.Prose

/-!
# The pieces of a growing text

Two cuts of one text, neither through a cue, give the same pieces up to the earlier cut. There the
last prose may go on. Where it is white space behind a group, more cues may still join the group,
and the prose is gone.

* `Piece.Grows`: this relation between pieces.
* `grows_piecesFrom`: it holds from any group on that both cuts know.
* `grows_pieces`: so it holds of the whole text.
-/
namespace CuedProse

open Glyph

/-! ## Slices of a first part -/

namespace Text

theorem slice_take (t : Text) {a b n : Nat} (h : b ≤ n) : slice (t.take n) a b = slice t a b := by
  rw [slice, slice, List.take_take, Nat.min_eq_left h]

theorem drop_take_le_slice (t : Text) (a : Nat) {b n : Nat} (h : n ≤ b) :
    (t.take n).drop a <+: slice t a b :=
  (List.take_prefix_take_left h : t.take n <+: t.take b).drop a

end Text

namespace Group

theorem joined_take (t : Text) {c d : Cue} {n : Nat} (h : d.start ≤ n) :
    joined (t.take n) c d = joined t c d := by
  rw [joined, joined, Text.slice_take t h]

end Group

namespace Markup

/-- The pieces of a text when less of it is known, and when more is: the last prose may go on, or it
is white space and the group in front of it may take more cues in. -/
inductive Piece.Grows : List Piece → List Piece → Prop where
  | prose {t u : Text} (rest : List Piece) : t <+: u → Grows [.prose t] (.prose u :: rest)
  | group {t : Text} (g h : Group) (rest : List Piece) : (∀ c ∈ t, isSpace c = true) →
      Grows [.cues g, .prose t] (.cues h :: rest)
  | cons (p : Piece) {early late : List Piece} : Grows early late → Grows (p :: early) (p :: late)

variable {t : Text} {n : Nat}

theorem filter_stop_le_eq_nil {c : Cue} {cs : List Cue} (hbehind : n ≤ c.start)
    (hlong : ∀ d ∈ c :: cs, d.start < d.stop)
    (hordered : (c :: cs).Pairwise fun c d => c.stop ≤ d.start) :
    ((c :: cs).filter fun d => d.stop ≤ n) = [] := by
  rw [List.filter_eq_nil_iff]
  intro d hd
  have hd' := hlong d hd
  have hc := hlong c (List.mem_cons_self ..)
  rw [decide_eq_true_eq]
  rcases List.mem_cons.mp hd with heq | hlater
  · rw [heq] at hd' ⊢
    omega
  · have := (List.pairwise_cons.mp hordered).1 d hlater
    omega

/-- The pieces from a group on, where the cues `cs` are still to come. -/
theorem grows_piecesFrom {cursor : Nat} {g : Group} {cs : List Cue} (hstart : g.start ≤ n)
    (hlong : ∀ c ∈ cs, c.start < c.stop) (huncut : ∀ c ∈ cs, c.stop ≤ n ∨ n ≤ c.start)
    (hordered : cs.Pairwise fun c d => c.stop ≤ d.start) :
    Piece.Grows
      (piecesFrom (t.take n) cursor
        (Group.runs (Group.joined (t.take n)) g (cs.filter fun c => c.stop ≤ n)))
      (piecesFrom t cursor (Group.runs (Group.joined t) g cs)) := by
  induction cs generalizing cursor g with
  | nil =>
    simp only [List.filter_nil, Group.runs, piecesFrom]
    rw [Text.slice_take t hstart]
    exact .cons _ (.cons _ (.prose _ ((List.take_prefix n t).drop g.stop)))
  | cons c cs ih =>
    obtain ⟨hc, hcs⟩ := List.forall_mem_cons.mp hlong
    obtain ⟨hcut, hcuts⟩ := List.forall_mem_cons.mp huncut
    obtain ⟨hfirst, hrest⟩ := List.pairwise_cons.mp hordered
    rcases hcut with hbefore | hbehind
    · -- the next cue is known to both
      have hcn : c.start ≤ n := by omega
      rw [List.filter_cons_of_pos (by simpa using hbefore)]
      unfold Group.runs
      rw [Group.joined_take t hcn]
      cases Group.joined t g.last c with
      | true => exact ih (g := g.push c) hstart hcs hcuts hrest
      | false =>
        simp only [Bool.false_eq_true, if_false, piecesFrom]
        rw [Text.slice_take t hstart]
        exact .cons _ (.cons _ (ih (g := ⟨c, []⟩) hcn hcs hcuts hrest))
    · -- the next cue is behind the earlier cut, and so are all others
      have hgap := Text.drop_take_le_slice t g.stop hbehind
      rw [filter_stop_le_eq_nil hbehind hlong hordered]
      simp only [Group.runs, piecesFrom]
      rw [Text.slice_take t hstart]
      cases hjoined : Group.joined t g.last c with
      | true =>
        obtain ⟨h, rest, hruns, hh⟩ := Group.runs_eq_cons (Group.joined t) (g.push c) cs
        rw [if_pos rfl, hruns, piecesFrom, hh, Group.start_push]
        refine .cons _ (.group g h _ fun d hd => ?_)
        have hspace := (Bool.and_eq_true_iff.mp hjoined).2
        exact List.all_eq_true.mp hspace d (hgap.subset hd)
      | false =>
        obtain ⟨h, rest, hruns, hh⟩ := Group.runs_eq_cons (Group.joined t) ⟨c, []⟩ cs
        rw [if_neg (by decide), hruns, piecesFrom, piecesFrom, hh]
        exact .cons _ (.cons _ (.prose _ hgap))

/-- The pieces of a first part in which no cue is cut grow into those of the whole. -/
theorem grows_pieces (h : Uncut t n) : Piece.Grows (pieces (t.take n)) (pieces t) := by
  have hordered := cues_ordered t
  have hlong : ∀ c ∈ cues t, c.start < c.stop := fun c hc => start_lt_stop hc
  have hknown := cues_take t n
  unfold Uncut at h
  unfold pieces
  cases hcues : cues t with
  | nil =>
    rw [hcues, List.filter_nil] at hknown
    simp only [groups, hknown, hcues, Group.gather, piecesFrom, List.drop_zero]
    exact .prose _ (List.take_prefix n t)
  | cons c cs =>
    rw [hcues] at hknown hordered hlong h
    obtain ⟨hcut, hcuts⟩ := List.forall_mem_cons.mp h
    rw [groups_eq_runs hcues]
    rcases hcut with hbefore | hbehind
    · rw [List.filter_cons_of_pos (by simpa using hbefore)] at hknown
      rw [groups_eq_runs hknown]
      obtain ⟨hc, hcs⟩ := List.forall_mem_cons.mp hlong
      exact grows_piecesFrom (g := ⟨c, []⟩) (show c.start ≤ n by omega) hcs hcuts
        (List.pairwise_cons.mp hordered).2
    · rw [filter_stop_le_eq_nil hbehind hlong hordered] at hknown
      obtain ⟨h, rest, hruns, hh⟩ := Group.runs_eq_cons (Group.joined t) ⟨c, []⟩ cs
      simp only [groups, hknown, Group.gather, piecesFrom, hruns, hh]
      exact .prose _ (Text.drop_take_le_slice t 0 hbehind)

end Markup

end CuedProse
