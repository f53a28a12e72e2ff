import Mathlib.Data.List.Forall2
import CuedProse.Proofs.Glyph.Growth
import CuedProse.Proofs.Line.Markers
import CuedProse.Proofs.Markup.Growth

/-!
# A line that is being revealed

When more of a line is revealed, what was shown of it stays. Only the last glyph may take up marks
that were still missing, and space may move: tidying decides on it once the next character is there.

* `Builder.markers_add`: a piece adds at most one marker and changes none.
* `MarkersGrow`: markers stay, and so do their groups; a glyph may go on.
* `markersGrow_foldl`: this is what growing pieces do to the markers.
* `reveal_grows`: nothing that was shown is taken back, and no part of a cue is ever shown.
-/
namespace CuedProse

open Glyph

/-- The glyph of a marker and the group that it stands for. -/
def Fragment.marker? : Fragment → Option (Text × Group)
  | prose _ => none
  | marker glyph g => some (glyph, g)

def RenderedLine.markers (l : RenderedLine) : List (Text × Group) :=
  l.fragments.filterMap Fragment.marker?

namespace Line

theorem addProse_markers (built : List Fragment) (t : Text) :
    (addProse built t).filterMap Fragment.marker? = built.filterMap Fragment.marker? :=
  filterMap_addProse (fun _ => rfl) built t

/-- All markers of `early` are among those of `late`, as the first ones and with the same groups;
their glyphs may have gone on. -/
def MarkersGrow (early late : List (Text × Group)) : Prop :=
  ∃ kept, kept <+: late ∧ List.Forall₂ (fun m m' => m.1 <+: m'.1 ∧ m.2 = m'.2) early kept

namespace MarkersGrow

variable {early late : List (Text × Group)}

theorem of_le (h : early <+: late) : MarkersGrow early late :=
  ⟨early, h, List.forall₂_same.mpr fun _ _ => ⟨List.prefix_rfl, rfl⟩⟩

theorem trans_le {late' : List (Text × Group)} (h : MarkersGrow early late) (hle : late <+: late') :
    MarkersGrow early late' := by
  obtain ⟨kept, hkept, hgrows⟩ := h
  exact ⟨kept, hkept.trans hle, hgrows⟩

theorem snoc (before : List (Text × Group)) {glyph glyph' : Text} (h : glyph <+: glyph')
    (g : Group) : MarkersGrow (before ++ [(glyph, g)]) (before ++ [(glyph', g)]) := by
  refine ⟨_, List.prefix_rfl, List.rel_append ?_ (.cons ⟨h, rfl⟩ .nil)⟩
  exact List.forall₂_same.mpr fun _ _ => ⟨List.prefix_rfl, rfl⟩

end MarkersGrow

namespace Builder

variable {b : Builder}

def markers (b : Builder) : List (Text × Group) := b.built.reverse.filterMap Fragment.marker?

/-- The marker that prose makes: its first letter, for the group that waits. -/
def marker? (b : Builder) (t : Text) : Option (Text × Group) :=
  b.pending.bind fun g => (splitAtLetter? (b.dropDoubled t)).map fun s => (s.glyph, g)

theorem markers_addProse (b : Builder) (t : Text) :
    (b.addProse t).markers = b.markers ++ (b.marker? t).toList := by
  unfold markers marker?
  obtain ⟨hnone, hadd⟩ | ⟨g, s, hg, hs, hadd⟩ := b.addProse_cases t
  · have hmarker : (b.pending.bind fun g =>
        (splitAtLetter? (b.dropDoubled t)).map fun s => (s.glyph, g)) = none := by
      rcases hnone with hnone | hnone <;> simp [hnone]
    rw [hadd, hmarker]
    simp [List.filterMap_reverse, addProse_markers]
  · have hmarker : ∀ built : List Fragment,
        (Fragment.marker s.glyph g :: built).filterMap Fragment.marker? =
          (s.glyph, g) :: built.filterMap Fragment.marker? :=
      fun built => List.filterMap_cons_some rfl
    rw [hadd, hg, hs]
    simp [List.filterMap_reverse, addProse_markers, hmarker]

/-- One step: a piece adds at most one marker and changes none. -/
theorem markers_add (start : Nat) (b : Builder) (p : Markup.Piece) :
    b.markers <+: (b.add start p).markers := by
  cases p with
  | prose t =>
    rw [add, markers_addProse]
    exact List.prefix_append _ _
  | cues g => exact List.prefix_rfl

theorem markers_foldl (start : Nat) (b : Builder) (pieces : List Markup.Piece) :
    b.markers <+: (pieces.foldl (add start) b).markers := by
  induction pieces generalizing b with
  | nil => exact List.prefix_rfl
  | cons p pieces ih => exact (markers_add start b p).trans (ih _)

theorem dropDoubled_mono (b : Builder) {t u : Text} (h : t <+: u) :
    b.dropDoubled t <+: b.dropDoubled u := by
  obtain ⟨v, hv⟩ := h
  rw [← hv]
  unfold dropDoubled
  split
  · cases t with
    | nil => exact List.nil_prefix
    | cons c t =>
      simp only [List.cons_append]
      split
      · exact List.prefix_append _ _
      · exact List.prefix_append _ _
  · exact List.prefix_append _ _

/-- Prose that goes on makes the same marker. -/
theorem markersGrow_addProse (b : Builder) {t u : Text} (h : t <+: u) :
    MarkersGrow (b.addProse t).markers (b.addProse u).markers := by
  rw [markers_addProse, markers_addProse]
  unfold marker?
  cases b.pending with
  | none => exact .of_le List.prefix_rfl
  | some g =>
    cases hs : splitAtLetter? (b.dropDoubled t) with
    | none => simpa using MarkersGrow.of_le (List.prefix_append _ _)
    | some s =>
      obtain ⟨v, hv⟩ := b.dropDoubled_mono h
      obtain ⟨s', hs', hglyph⟩ := splitAtLetter?_append hs v
      rw [hv] at hs'
      rw [hs']
      exact .snoc _ hglyph g

theorem marker?_eq_none {t : Text} (h : ∀ c ∈ t, isSpace c = true) : b.marker? t = none := by
  have hblank : ∀ c ∈ b.dropDoubled t, isSpace c = true := fun c hc =>
    h c ((b.dropDoubled_keepsInk t).sublist.subset hc)
  unfold marker?
  rw [splitAtLetter?_eq_none hblank]
  cases b.pending <;> rfl

theorem markersGrow_foldl (start : Nat) {early late : List Markup.Piece}
    (h : Markup.Piece.Grows early late) :
    MarkersGrow (early.foldl (add start) b).markers (late.foldl (add start) b).markers := by
  induction h generalizing b with
  | @prose t u rest htu => exact (markersGrow_addProse b htu).trans_le (markers_foldl start _ rest)
  | @group t g g' rest hspace =>
    have hnone : ((b.addGroup (g.shift start)).addProse t).markers = b.markers := by
      rw [markers_addProse, marker?_eq_none hspace, Option.toList_none, List.append_nil]
      rfl
    have hbuilt : (b.addGroup (g'.shift start)).markers = b.markers := rfl
    refine .of_le ?_
    rw [List.foldl_cons, List.foldl_cons, List.foldl_nil, List.foldl_cons]
    exact List.IsPrefix.trans (by rw [add, add, hnone]) (hbuilt ▸ markers_foldl start _ rest)
  | cons p _ ih => exact ih

end Builder

/-! ## Two cuts of one line -/

/-- What an earlier cut shows begins what a later one shows, and it ends in no cue there. -/
theorem shown_grows (t : Text) {j k : Nat} (hjk : j ≤ k) (line start : Nat) (cut : Bool) :
    let shown := (⟨line, start, t.take k, cut⟩ : Slice).shown
    Markup.hideUnfinished (t.take j) <+: shown ∧
      Markup.Uncut shown (Markup.hideUnfinished (t.take j)).length := by
  intro shown
  have hgrows : Markup.hideUnfinished (t.take j) <+: shown := by
    cases cut with
    | true => exact Markup.hideUnfinished_take_mono t hjk
    | false =>
      exact (Markup.hideUnfinished_prefix_self _).trans (List.take_prefix_take_left hjk)
  have hfirst : shown <+: t := (Slice.shown_le _).trans (List.take_prefix k t)
  refine ⟨hgrows, ?_⟩
  rw [List.prefix_iff_eq_take.mp hfirst]
  exact (Markup.uncut_hideUnfinished t j).take _

/-- **Revealing more of a line takes nothing back.** The ink shown at an earlier cut begins the ink
shown later, and its markers are the first ones later, with the same groups; their glyphs may have
gone on. And what is shown early is what no cue of the whole line covers, whether the cue was
finished then or not. -/
theorem reveal_grows (pending : Option Group) (line start : Nat) {t : Text} (hfeed : '\n' ∉ t)
    {j k : Nat} (hjk : j ≤ k) (cut : Bool) :
    let early := (render pending ⟨line, start, t.take j, true⟩).1
    let late := (render pending ⟨line, start, t.take k, cut⟩).1
    ink early.plain <+: ink late.plain ∧ MarkersGrow early.markers late.markers ∧
      KeepsInk early.plain (Text.pick (Markup.free t) 0 (Markup.hideUnfinished (t.take j))) := by
  intro early late
  have hpart : ∀ i, '\n' ∉ t.take i := fun i hmem => hfeed (List.mem_of_mem_take hmem)
  have hearly := render_keepsInk pending ⟨line, start, t.take j, true⟩ (hpart j)
  have hlate := render_keepsInk pending ⟨line, start, t.take k, cut⟩ (hpart k)
  obtain ⟨hshown, huncut⟩ := shown_grows t hjk line start cut
  have hfirst : Markup.hideUnfinished (t.take j) <+: t :=
    (Markup.hideUnfinished_prefix_self _).trans (List.take_prefix j t)
  refine ⟨?_, ?_, ?_⟩
  · rw [hearly.ink_eq, hlate.ink_eq]
    have hvisible := huncut.pick_free hshown
    exact ink_mono (hvisible ▸ Text.pick_mono hshown)
  · have hgrows := Markup.grows_pieces huncut
    rw [← List.prefix_iff_eq_take.mp hshown] at hgrows
    exact Builder.markersGrow_foldl start hgrows
  · rw [← (Markup.uncut_hideUnfinished t j).pick_free hfirst]
    exact hearly

/-- A glyph takes up the accent that its letter was shown without. -/
theorem reveal_grows_of_accent :
    let t := "[cue:vfx|x]e\u0301!".toList
    let g : Group := ⟨⟨.vfx, ['x'], {}, 0, 11, "[cue:vfx|x]".toList⟩, []⟩
    let early := (render none ⟨0, 0, t.take 12, true⟩).1
    let late := (render none ⟨0, 0, t.take 14, false⟩).1
    '\n' ∉ t ∧ 12 ≤ 14 ∧ MarkersGrow early.markers late.markers ∧
      early.markers = [(['e'], g)] ∧ late.markers = [(['e', '\u0301'], g)] := by
  have hfeed : '\n' ∉ "[cue:vfx|x]e\u0301!".toList := by decide
  have hle : 12 ≤ 14 := by decide
  exact ⟨hfeed, hle, (reveal_grows none 0 0 hfeed hle false).2.1, by decide +kernel,
    by decide +kernel⟩

end Line

end CuedProse
