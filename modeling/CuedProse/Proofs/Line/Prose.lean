import CuedProse.Proofs.Cue.Grouping
import CuedProse.Proofs.Line.Ink
import CuedProse.Proofs.Markup.Hidden

/-!
# The prose of a line

A line is cut at its groups of cues, and a group takes the white space between its cues along. So
the prose between the groups is what no cue covers, but for some space.

* `groups_eq_runs`: the cues of a text meet what grouping needs.
* `pieces_keepsInk`: the prose of the pieces keeps the ink that no cue covers.
* `render_keepsInk`: so does what is shown of the line.
-/
namespace CuedProse

open Glyph

namespace Markup

variable {t : Text}

theorem inside_of_mem {c : Cue} (h : c ∈ cues t) : c.Inside t :=
  ⟨Nat.le_of_lt (start_lt_stop h), stop_le_length h⟩

theorem cues_start_le (t : Text) : (cues t).Pairwise fun c d => c.start ≤ d.start :=
  (cues_ordered t).imp_of_mem fun hc _ hcd => Nat.le_trans (inside_of_mem hc).start_le hcd

theorem groups_eq_runs {c : Cue} {cs : List Cue} (h : cues t = c :: cs) :
    groups t = Group.runs (Group.joined t) ⟨c, []⟩ cs := by
  rw [groups, h, Group.gather_eq_runs (h ▸ cues_start_le t)]
  intro d hd
  exact inside_of_mem (h ▸ hd)

/-- A stretch whose visible characters are all space may be left out of what is visible behind it. -/
theorem keepsInk_slice {visible : Nat → Bool} {a b : Nat} (hab : a ≤ b) (hb : b ≤ t.length)
    (hblank : ∀ c ∈ Text.pick visible a (Text.slice t a b), isHorizontalSpace c = true)
    {u : Text} (hu : Line.KeepsInk u (Text.pick visible b (t.drop b))) :
    Line.KeepsInk u (Text.pick visible a (t.drop a)) := by
  rw [← Text.slice_append_drop t hab, Text.pick_append, Text.slice_length hb,
    Nat.add_sub_cancel' hab]
  exact (Line.KeepsInk.nil fun c hc => .inr (hblank c hc)).append hu

theorem keepsInk_prose {visible : Nat → Bool} {a b : Nat} (hab : a ≤ b) (hb : b ≤ t.length)
    (hfree : ∀ o, a ≤ o → o < b → visible o = true)
    {u : Text} (hu : Line.KeepsInk u (Text.pick visible b (t.drop b))) :
    Line.KeepsInk (Text.slice t a b ++ u) (Text.pick visible a (t.drop a)) := by
  rw [← Text.slice_append_drop t hab, Text.pick_append, Text.slice_length hb,
    Nat.add_sub_cancel' hab, Text.pick_eq_self]
  · exact (Line.KeepsInk.refl _).append hu
  · intro i hi
    rw [Text.slice_length hb] at hi
    exact hfree _ (by omega) (by omega)

/-- A group of a line is being gathered from the offset `start` on and has come to `stop`, and the
cues `cs` are still to come: what is visible of the group is space, and behind it everything is
visible but these cues. -/
structure Gathering (t : Text) (visible : Nat → Bool) (start stop : Nat) (cs : List Cue) :
    Prop where
  start_le : start ≤ stop
  stop_le : stop ≤ t.length
  blank : ∀ c ∈ Text.pick visible start (Text.slice t start stop), isHorizontalSpace c = true
  ordered : cs.Pairwise fun c d => c.stop ≤ d.start
  behind : ∀ c ∈ cs, c.Inside t ∧ stop ≤ c.start
  visible_iff : ∀ o, stop ≤ o → (visible o = true ↔ ∀ c ∈ cs, c.start ≤ o → c.stop ≤ o)

theorem gathering_cues (t : Text) : Gathering t (free t) 0 0 (cues t) where
  start_le := Nat.zero_le _
  stop_le := Nat.zero_le _
  blank := by simp [Text.slice]
  ordered := cues_ordered t
  behind _ hc := ⟨inside_of_mem hc, Nat.zero_le _⟩
  visible_iff _ _ := free_eq_true

namespace Gathering

variable {visible : Nat → Bool} {start stop : Nat} {c : Cue} {cs : List Cue}

theorem visible_gap (h : Gathering t visible start stop (c :: cs)) {o : Nat} (hstop : stop ≤ o)
    (ho : o < c.start) : visible o = true := by
  rw [h.visible_iff o hstop]
  intro d hd hstart
  rcases List.mem_cons.mp hd with hd | hd
  · rw [hd] at hstart
    omega
  · have := (List.pairwise_cons.mp h.ordered).1 d hd
    have := (h.behind c (List.mem_cons_self ..)).1.start_le
    omega

/-- Nothing of the next cue is visible, so it begins a group of its own. -/
theorem next (h : Gathering t visible start stop (c :: cs)) :
    Gathering t visible c.start c.stop cs := by
  obtain ⟨hc, hgap⟩ := h.behind c (List.mem_cons_self ..)
  obtain ⟨hfirst, hordered⟩ := List.pairwise_cons.mp h.ordered
  have hcue : Text.pick visible c.start (Text.slice t c.start c.stop) = [] := by
    refine Text.pick_eq_nil fun i hi => ?_
    rw [Text.slice_length hc.stop_le] at hi
    rw [Bool.eq_false_iff, ne_eq, h.visible_iff _ (by omega)]
    intro hall
    have := hall c (List.mem_cons_self ..) (Nat.le_add_right _ _)
    omega
  refine ⟨hc.start_le, hc.stop_le, by simp [hcue], hordered, fun d hd => ?_, fun o ho => ?_⟩
  · exact ⟨(h.behind d (List.mem_cons_of_mem _ hd)).1, hfirst d hd⟩
  · rw [h.visible_iff o (Nat.le_trans hgap (Nat.le_trans hc.start_le ho)), List.forall_mem_cons]
    exact ⟨fun hall => hall.2, fun hrest => ⟨fun _ => ho, hrest⟩⟩

/-- The next cue joins the group if the gap in front of it is space. -/
theorem push (h : Gathering t visible start stop (c :: cs)) (hfeed : '\n' ∉ t)
    (hspace : (Text.slice t stop c.start).all isSpace = true) :
    Gathering t visible start c.stop cs := by
  obtain ⟨hc, hgap⟩ := h.behind c (List.mem_cons_self ..)
  have hnext := h.next
  have hstart : stop ≤ c.stop := Nat.le_trans hgap hc.start_le
  refine ⟨Nat.le_trans h.start_le hstart, hc.stop_le, ?_, hnext.ordered, hnext.behind,
    hnext.visible_iff⟩
  -- the group so far, the gap and the cue
  rw [← Text.slice_append_slice t h.start_le hstart, ← Text.slice_append_slice t hgap hc.start_le,
    Text.pick_append, Text.pick_append, Text.slice_length h.stop_le,
    Text.slice_length (Nat.le_trans hc.start_le hc.stop_le), Nat.add_sub_cancel' h.start_le,
    Nat.add_sub_cancel' hgap]
  intro d hd
  rcases List.mem_append.mp hd with hd | hd
  · exact h.blank d hd
  · rcases List.mem_append.mp hd with hd | hd
    · have hmem := (Text.pick_sublist _ _ _).subset hd
      have hne : d ≠ '\n' := fun heq =>
        hfeed (heq ▸ List.mem_of_mem_take (List.mem_of_mem_drop hmem))
      rw [isHorizontalSpace, List.all_eq_true.mp hspace d hmem, Bool.true_and]
      simpa using hne
    · exact hnext.blank d hd

end Gathering

/-- The prose of a line from the offset `cursor` on keeps the ink that is visible, if the next group
is being gathered and everything in front of it is visible. -/
theorem piecesFrom_keepsInk (hfeed : '\n' ∉ t) {visible : Nat → Bool} {cursor : Nat} {g : Group}
    {cs : List Cue} (hcursor : cursor ≤ g.start)
    (hlead : ∀ o, cursor ≤ o → o < g.start → visible o = true)
    (h : Gathering t visible g.start g.stop cs) :
    Line.KeepsInk ((piecesFrom t cursor (Group.runs (Group.joined t) g cs)).flatMap Piece.text)
      (Text.pick visible cursor (t.drop cursor)) := by
  have hstart : g.start ≤ t.length := Nat.le_trans h.start_le h.stop_le
  induction cs generalizing cursor g with
  | nil =>
    have hrest : Text.pick visible g.stop (t.drop g.stop) = t.drop g.stop :=
      Text.pick_eq_self fun i _ => (h.visible_iff _ (Nat.le_add_right _ _)).mpr (by simp)
    refine keepsInk_prose hcursor hstart hlead (keepsInk_slice h.start_le h.stop_le h.blank ?_)
    rw [hrest]
    simpa [Group.runs, piecesFrom, Piece.text] using Line.KeepsInk.refl (t.drop g.stop)
  | cons c cs ih =>
    obtain ⟨hc, hgap⟩ := h.behind c (List.mem_cons_self ..)
    unfold Group.runs
    split
    · rename_i hjoined
      have hpush := h.push hfeed (Bool.and_eq_true_iff.mp hjoined).2
      rw [show c.stop = (g.push c).stop from congrArg Cue.stop (Group.last_push g c).symm] at hpush
      exact ih (g := g.push c) hcursor hlead hpush hstart
    · refine keepsInk_prose hcursor hstart hlead (keepsInk_slice h.start_le h.stop_le h.blank ?_)
      exact ih (g := ⟨c, []⟩) hgap (fun o => h.visible_gap) h.next
        (Nat.le_trans hc.start_le hc.stop_le)

/-- The prose between the groups of a line keeps the ink that no cue covers. -/
theorem pieces_keepsInk (hfeed : '\n' ∉ t) :
    Line.KeepsInk ((pieces t).flatMap Piece.text) (Text.pick (free t) 0 t) := by
  have hfirst := gathering_cues t
  cases hcues : cues t with
  | nil =>
    have hall : Text.pick (free t) 0 t = t :=
      Text.pick_eq_self fun i _ => free_eq_true.mpr (by simp [hcues])
    have hpieces : (pieces t).flatMap Piece.text = t := by
      simp [pieces, groups, hcues, Group.gather, piecesFrom, Piece.text]
    rw [hall, hpieces]
    exact .refl t
  | cons c cs =>
    rw [hcues] at hfirst
    rw [pieces, groups_eq_runs hcues]
    exact piecesFrom_keepsInk (g := ⟨c, []⟩) hfeed (Nat.zero_le _) (fun o => hfirst.visible_gap)
      hfirst.next

end Markup

namespace Line

theorem Slice.shown_le (s : Slice) : s.shown <+: s.text := by
  unfold shown
  split
  · exact Markup.hideUnfinished_prefix_self s.text
  · exact List.prefix_rfl

/-- **What is shown of a line is its visible text.** -/
theorem render_keepsInk (pending : Option Group) (s : Slice) (hfeed : '\n' ∉ s.text) :
    KeepsInk (render pending s).1.plain (Text.pick (Markup.free s.shown) 0 s.shown) := by
  have hshown : '\n' ∉ s.shown := fun hmem => hfeed (s.shown_le.subset hmem)
  have hbuilt := Builder.keepsInk_foldl s.start { pending } (Markup.pieces s.shown)
  exact hbuilt.trans (Markup.pieces_keepsInk hshown)

theorem render_wellBuilt (pending : Option Group) (s : Slice) :
    WellBuilt (render pending s).1.fragments :=
  (Builder.wellBuilt_foldl s.start WellBuilt.nil (Markup.pieces s.shown)).reverse

end Line

end CuedProse
