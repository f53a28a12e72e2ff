import Mathlib.Data.List.Basic
import Mathlib.Data.List.Induction
import CuedProse.Line.Anchor
import CuedProse.Proofs.Pointer.Spots

/-!
# Markers that lie over each other

The markers of a line are placed side by side, each where the text before it ends. A marker whose
glyph takes no column covers a cell all the same, the one in which the text behind it begins. If
that is the glyph of another marker, both cover the cell, and the pointer only finds the first.

* `pairwise_spotsFrom_iff`: a relation between the markers of a line, marker by marker.
* `spotsFrom_apart`: a marker begins where the glyph of an earlier one ends, or later.
* `Overlaid`: a marker stands behind one without any width, with nothing of any width in between.
* `exists_overlaying_iff`: this is what it takes for two markers to begin at the same column with
  no column between them.
* `spotsFrom_disjoint_iff`: the markers of a line cover cells of their own if none is overlaid.
* `Lists.exists_markerAt?_iff`: a marker is found somewhere unless an overlaying one has its cell.
* `hoverable_iff`: so the regions of a line are in order, they are disjoint if no marker is
  overlaid, and a marker can be pointed at unless it is overlaid and covers no other cell.
-/
namespace CuedProse

namespace Spot

/-- Where two markers of a line cover a common cell, if the second begins where the glyph of the
first ends, or later: the first has no width, and the cell is the first one of the second. -/
theorem covers_of_before {s t : Spot} {c : Cell} (hline : s.line = t.line)
    (hbefore : s.column + s.width ≤ t.column) (ht : t.Covers c) :
    s.Covers c ↔ (s.width = 0 ∧ s.column = t.column) ∧ c.column = t.column := by
  unfold Covers at ht ⊢
  omega

theorem stop_le_iff {s t : Spot} (hbefore : s.column + s.width ≤ t.column) :
    s.column + max s.width 1 ≤ t.column ↔ ¬ (s.width = 0 ∧ s.column = t.column) := by
  omega

/-- A marker is first at some cell of its own, unless one of those before it has no width and stands
at its only cell. -/
theorem exists_own_cell_iff {before : List Spot} {s : Spot}
    (hbefore : ∀ t ∈ before, t.line = s.line ∧ t.column + t.width ≤ s.column) :
    (∃ c, s.Covers c ∧ ∀ t ∈ before, ¬ t.Covers c) ↔
      ¬ ((∃ t ∈ before, t.width = 0 ∧ t.column = s.column) ∧ s.width ≤ 1) := by
  constructor
  · rintro ⟨c, hc, hnone⟩ ⟨⟨t, ht, hover⟩, hwidth⟩
    obtain ⟨hline, hleft⟩ := hbefore t ht
    refine hnone t ht ((covers_of_before hline hleft hc).mpr ⟨hover, ?_⟩)
    unfold Covers at hc
    omega
  · intro hnot
    by_cases hover : ∃ t ∈ before, t.width = 0 ∧ t.column = s.column
    · -- the second cell of the marker is free
      have hwidth : 1 < s.width := Nat.lt_of_not_le fun hle => hnot ⟨hover, hle⟩
      have hc : s.Covers ⟨s.line, s.column + 1⟩ := ⟨rfl, by dsimp only; omega, by dsimp only; omega⟩
      refine ⟨_, hc, fun t ht hcovers => ?_⟩
      obtain ⟨hline, hleft⟩ := hbefore t ht
      have hcolumn : s.column + 1 = s.column := ((covers_of_before hline hleft hc).mp hcovers).2
      omega
    · have hc : s.Covers ⟨s.line, s.column⟩ := ⟨rfl, Nat.le_refl _, by dsimp only; omega⟩
      refine ⟨_, hc, fun t ht hcovers => hover ⟨t, ht, ?_⟩⟩
      obtain ⟨hline, hleft⟩ := hbefore t ht
      exact ((covers_of_before hline hleft hc).mp hcovers).1

theorem exists_firstAt_iff (before : List Spot) (s : Spot) (after : List Spot) (c : Cell) :
    (∃ s', FirstAt (before ++ s :: after) c before.length s') ↔
      s.Covers c ∧ ∀ t ∈ before, ¬ t.Covers c := by
  simp [FirstAt]

end Spot

namespace MarkerMap

/-! ## The markers of a line -/

section
variable (eastAsian : Bool) (line column : Nat)

theorem columnsOf_append (a b : List Fragment) :
    columnsOf eastAsian (a ++ b) = columnsOf eastAsian a + columnsOf eastAsian b := by
  induction a with
  | nil => simp [columnsOf]
  | cons f a ih => rw [List.cons_append, columnsOf, columnsOf, ih, Nat.add_assoc]

theorem columnsOf_eq_zero_iff (fragments : List Fragment) :
    columnsOf eastAsian fragments = 0 ↔
      ∀ f ∈ fragments, Glyph.columns eastAsian f.text = 0 := by
  induction fragments with
  | nil => simp [columnsOf]
  | cons f fragments ih => rw [columnsOf, Nat.add_eq_zero_iff, ih, List.forall_mem_cons]

theorem spotsFrom_append (a b : List Fragment) :
    spotsFrom eastAsian line column (a ++ b) = spotsFrom eastAsian line column a ++
      spotsFrom eastAsian line (column + columnsOf eastAsian a) b := by
  induction a generalizing column with
  | nil => rfl
  | cons f a ih => cases f <;> simp [spotsFrom, columnsOf, ih, Fragment.text, Nat.add_assoc]

theorem length_spotsFrom (fragments : List Fragment) :
    (spotsFrom eastAsian line column fragments).length =
      (fragments.filterMap Fragment.group?).length := by
  induction fragments generalizing column with
  | nil => rfl
  | cons f fragments ih =>
    cases f with
    | prose t => exact ih _
    | marker glyph g =>
      rw [List.filterMap_cons_some (rfl : (Fragment.marker glyph g).group? = some g), spotsFrom,
        List.length_cons, List.length_cons, ih]

theorem mem_spotsFrom_iff (fragments : List Fragment) (s : Spot) :
    s ∈ spotsFrom eastAsian line column fragments ↔
      ∃ before glyph g after, fragments = before ++ .marker glyph g :: after ∧
        s = ⟨line, column + columnsOf eastAsian before, Glyph.columns eastAsian glyph, g⟩ := by
  constructor
  · intro hs
    induction fragments generalizing column with
    | nil => cases hs
    | cons f fragments ih =>
      cases f with
      | prose t =>
        obtain ⟨before, glyph, g, after, rfl, rfl⟩ := ih _ hs
        exact ⟨.prose t :: before, glyph, g, after, rfl, by simp [columnsOf, Fragment.text,
          Nat.add_assoc]⟩
      | marker glyph g =>
        rcases List.mem_cons.mp hs with rfl | hs
        · exact ⟨[], glyph, g, fragments, rfl, rfl⟩
        · obtain ⟨before, glyph', g', after, rfl, rfl⟩ := ih _ hs
          exact ⟨.marker glyph g :: before, glyph', g', after, rfl, by simp [columnsOf,
            Fragment.text, Nat.add_assoc]⟩
  · rintro ⟨before, glyph, g, after, rfl, rfl⟩
    rw [spotsFrom_append]
    exact List.mem_append_right _ (List.mem_cons_self ..)

/-- A relation holds between the markers of a line if it holds between each marker and those in
front of it. -/
theorem pairwise_spotsFrom_iff (P : Spot → Spot → Prop) (fragments : List Fragment) :
    (spotsFrom eastAsian line column fragments).Pairwise P ↔
      ∀ before glyph g after, fragments = before ++ .marker glyph g :: after →
        ∀ t ∈ spotsFrom eastAsian line column before,
          P t ⟨line, column + columnsOf eastAsian before, Glyph.columns eastAsian glyph, g⟩ := by
  constructor
  · rintro h before glyph g after rfl t ht
    rw [spotsFrom_append, List.pairwise_append] at h
    exact h.2.2 t ht _ (List.mem_cons_self ..)
  · intro h
    induction fragments using List.reverseRecOn with
    | nil => exact .nil
    | append_singleton fragments f ih =>
      have hinit := ih fun before glyph g after hsplit =>
        h before glyph g (after ++ [f]) (by rw [hsplit, List.append_assoc]; rfl)
      rw [spotsFrom_append]
      cases f with
      | prose t => simpa [spotsFrom] using hinit
      | marker glyph g =>
        refine List.pairwise_append.mpr ⟨hinit, List.pairwise_singleton .., fun t ht s hs => ?_⟩
        rw [List.mem_singleton.mp hs]
        exact h fragments glyph g [] rfl t ht

theorem before_end_of_mem {fragments : List Fragment} {s : Spot}
    (h : s ∈ spotsFrom eastAsian line column fragments) :
    s.line = line ∧ s.column + s.width ≤ column + columnsOf eastAsian fragments := by
  obtain ⟨before, glyph, g, after, rfl, rfl⟩ := (mem_spotsFrom_iff ..).mp h
  refine ⟨rfl, ?_⟩
  simp only [columnsOf_append, columnsOf, Fragment.text]
  omega

theorem spotsFrom_apart (fragments : List Fragment) :
    (spotsFrom eastAsian line column fragments).Pairwise fun s t =>
      s.column + s.width ≤ t.column := by
  rw [pairwise_spotsFrom_iff]
  intro before glyph g after _ t ht
  exact (before_end_of_mem eastAsian line column ht).2

/-- What stands behind `before` is overlaid: there is a marker without any width in `before`, and
nothing of any width behind it. -/
def Overlaid (before : List Fragment) : Prop :=
  ∃ earlier glyph g between, before = earlier ++ .marker glyph g :: between ∧
    Glyph.columns eastAsian glyph = 0 ∧ ∀ f ∈ between, Glyph.columns eastAsian f.text = 0

/-- So a marker without any width stands where the text behind `before` begins. -/
theorem exists_overlaying_iff (before : List Fragment) :
    (∃ t ∈ spotsFrom eastAsian line column before,
      t.width = 0 ∧ t.column = column + columnsOf eastAsian before) ↔
      Overlaid eastAsian before := by
  constructor
  · rintro ⟨t, ht, hwidth, hcolumn⟩
    obtain ⟨earlier, glyph, g, between, rfl, rfl⟩ := (mem_spotsFrom_iff ..).mp ht
    simp only [columnsOf_append, columnsOf, Fragment.text] at hwidth hcolumn
    refine ⟨earlier, glyph, g, between, rfl, hwidth, ?_⟩
    rw [← columnsOf_eq_zero_iff]
    omega
  · rintro ⟨earlier, glyph, g, between, rfl, hwidth, hbetween⟩
    rw [← columnsOf_eq_zero_iff] at hbetween
    refine ⟨_, (mem_spotsFrom_iff ..).mpr ⟨earlier, glyph, g, between, rfl, rfl⟩, hwidth, ?_⟩
    simp only [columnsOf_append, columnsOf, Fragment.text]
    omega

/-- The markers of a line cover cells of their own if and only if none of them is overlaid. -/
theorem spotsFrom_disjoint_iff (fragments : List Fragment) :
    ((spotsFrom eastAsian line column fragments).Pairwise fun s t =>
      s.column + max s.width 1 ≤ t.column) ↔
      ∀ before glyph g after, fragments = before ++ .marker glyph g :: after →
        ¬ Overlaid eastAsian before := by
  rw [pairwise_spotsFrom_iff]
  refine forall₄_congr fun before glyph g after => imp_congr_right fun _ => ?_
  rw [← exists_overlaying_iff eastAsian line column, not_exists]
  refine forall_congr' fun t => ?_
  rw [not_and]
  refine imp_congr_right fun ht => ?_
  exact Spot.stop_le_iff (before_end_of_mem eastAsian line column ht).2

end

/-! ## The regions of a line -/

theorem length_flatMap_spots (eastAsian : Bool) (lines : List RenderedLine) :
    (lines.flatMap (spots eastAsian)).length = (lines.flatMap RenderedLine.groups).length := by
  induction lines with
  | nil => rfl
  | cons l lines ih =>
    rw [List.flatMap_cons, List.flatMap_cons, List.length_append, List.length_append, ih, spots,
      length_spotsFrom, RenderedLine.groups]

theorem exists_flatMap_spots_eq (eastAsian : Bool) (earlier : List RenderedLine) (l : RenderedLine)
    (later : List RenderedLine) {before after : List Fragment} {glyph : Text} {g : Group}
    (hsplit : l.fragments = before ++ .marker glyph g :: after) :
    ∃ rest, (earlier ++ l :: later).flatMap (spots eastAsian) =
      (earlier.flatMap (spots eastAsian) ++ spotsFrom eastAsian l.line 0 before) ++
        ⟨l.line, 0 + columnsOf eastAsian before, Glyph.columns eastAsian glyph, g⟩ :: rest := by
  rw [List.flatMap_append, List.flatMap_cons, spots, hsplit, spotsFrom_append, spotsFrom]
  simp

theorem line_of_mem_spots {eastAsian : Bool} {l : RenderedLine} {s : Spot}
    (h : s ∈ spots eastAsian l) : s.line = l.line :=
  (before_end_of_mem eastAsian l.line 0 h).1

theorem line_ne_of_mem_spots {eastAsian : Bool} {lines : List RenderedLine} {n : Nat}
    (hlines : ∀ l ∈ lines, l.line ≠ n) : ∀ s ∈ lines.flatMap (spots eastAsian), s.line ≠ n := by
  intro s hs heq
  obtain ⟨l, hl, hsl⟩ := List.mem_flatMap.mp hs
  exact hlines l hl ((line_of_mem_spots hsl).symm.trans heq)

theorem filter_spots {eastAsian : Bool} {lines : List RenderedLine}
    (hlines : (lines.map (·.line)).Nodup) {l : RenderedLine} (hl : l ∈ lines) :
    (lines.flatMap (spots eastAsian)).filter (·.line = l.line) = spots eastAsian l := by
  have hnone : ∀ ks : List RenderedLine, (∀ k ∈ ks, k.line ≠ l.line) →
      (ks.flatMap (spots eastAsian)).filter (fun s => s.line = l.line) = [] := by
    intro ks hks
    rw [List.filter_eq_nil_iff]
    exact fun s hs heq => line_ne_of_mem_spots hks s hs (of_decide_eq_true heq)
  have hall : (spots eastAsian l).filter (fun s => s.line = l.line) = spots eastAsian l :=
    List.filter_eq_self.mpr fun s hs => decide_eq_true (line_of_mem_spots hs)
  obtain ⟨earlier, later, rfl⟩ := List.append_of_mem hl
  rw [List.map_append, List.map_cons, List.nodup_append, List.nodup_cons] at hlines
  obtain ⟨-, ⟨hlater, -⟩, hearlier⟩ := hlines
  have hbefore := hnone earlier fun k hk =>
    hearlier _ (List.mem_map_of_mem hk) _ (List.mem_cons_self ..)
  have hbehind := hnone later fun k hk heq => hlater (heq ▸ List.mem_map_of_mem hk)
  rw [List.flatMap_append, List.flatMap_cons, List.filter_append, List.filter_append, hbefore, hall,
    hbehind, List.nil_append, List.append_nil]

/-- A relation between regions that does not look at their numbers, seen on the markers of one
line. -/
theorem Lists.pairwise_regions_iff {m : MarkerMap} {ss : List Spot} (h : Lists m ss) (n : Nat)
    {R : Region → Region → Prop} {P : Spot → Spot → Prop}
    (hR : ∀ s t i j, R (s.region i) (t.region j) ↔ P s t) :
    (m.regions.filter (·.line = n)).Pairwise R ↔ (ss.filter (·.line = n)).Pairwise P := by
  rw [List.pairwise_filter, List.pairwise_filter, h.regions, List.pairwise_iff_getElem,
    List.pairwise_iff_getElem]
  simp only [List.length_mapIdx, List.getElem_mapIdx, hR]
  exact Iff.rfl

/-- A marker can be pointed at unless one of those in front of it on the line has no width and
stands at its only cell. -/
theorem Lists.exists_markerAt?_iff {m : MarkerMap} {others left rest : List Spot} {s : Spot}
    (h : Lists m ((others ++ left) ++ s :: rest)) (hothers : ∀ t ∈ others, t.line ≠ s.line)
    (hleft : ∀ t ∈ left, t.line = s.line ∧ t.column + t.width ≤ s.column) :
    (∃ c, m.markerAt? c = some (others ++ left).length) ↔
      ¬ ((∃ t ∈ left, t.width = 0 ∧ t.column = s.column) ∧ s.width ≤ 1) := by
  rw [← Spot.exists_own_cell_iff hleft]
  refine exists_congr fun c => ?_
  rw [h.markerAt?_eq_some_iff, Spot.exists_firstAt_iff]
  refine and_congr_right fun hc => ?_
  -- the markers of other lines are not at the cell
  rw [List.forall_mem_append]
  exact and_iff_right fun t ht hcovers => hothers t ht (hcovers.1.trans hc.1.symm)

/-- **Which markers can be pointed at.** The map of some lines, no two of them with the same number,
counts their markers in reading order. The regions of a line are in order from left to right, and
disjoint if and only if no marker is overlaid. A marker can be pointed at unless it is overlaid and
takes one column at most. -/
theorem hoverable_iff (eastAsian : Bool) (lines : List RenderedLine)
    (hlines : (lines.map (·.line)).Nodup) :
    let m := ofLines eastAsian lines
    m.size = (lines.flatMap RenderedLine.groups).length ∧
      (∀ l ∈ lines,
        (m.regions.filter (·.line = l.line)).Pairwise (fun r s => r.first ≤ s.first) ∧
          ((m.regions.filter (·.line = l.line)).Pairwise (fun r s => r.stop ≤ s.first) ↔
            ∀ before glyph g after, l.fragments = before ++ .marker glyph g :: after →
              ¬ Overlaid eastAsian before)) ∧
      ∀ earlier l later before glyph g after, lines = earlier ++ l :: later →
        l.fragments = before ++ .marker glyph g :: after →
          let i := (earlier.flatMap RenderedLine.groups).length +
            (before.filterMap Fragment.group?).length
          m.group? i = some g ∧
            ((∃ c, m.markerAt? c = some i) ↔
              ¬ (Overlaid eastAsian before ∧ Glyph.columns eastAsian glyph ≤ 1)) := by
  intro m
  have hlists : Lists m _ := lists_ofLines eastAsian lines
  refine ⟨?_, fun l hl => ⟨?_, ?_⟩, ?_⟩
  · rw [hlists.size_eq, length_flatMap_spots]
  · rw [hlists.pairwise_regions_iff (P := fun s t => s.column ≤ t.column) l.line
      fun _ _ _ _ => Iff.rfl, filter_spots hlines hl]
    exact (spotsFrom_apart eastAsian l.line 0 l.fragments).imp fun h => by omega
  · rw [hlists.pairwise_regions_iff (P := fun s t => s.column + max s.width 1 ≤ t.column) l.line
      fun _ _ _ _ => Iff.rfl, filter_spots hlines hl]
    exact spotsFrom_disjoint_iff eastAsian l.line 0 l.fragments
  · rintro earlier l later before glyph g after rfl hsplit i
    have hnumber : i = (earlier.flatMap (spots eastAsian) ++
        spotsFrom eastAsian l.line 0 before).length := by
      rw [List.length_append, length_flatMap_spots, length_spotsFrom]
    have hothers : ∀ t ∈ earlier.flatMap (spots eastAsian), t.line ≠ l.line := by
      rw [List.map_append, List.nodup_append] at hlines
      exact line_ne_of_mem_spots fun k hk =>
        hlines.2.2 _ (List.mem_map_of_mem hk) _ (List.mem_cons_self ..)
    obtain ⟨rest, hspots⟩ := exists_flatMap_spots_eq eastAsian earlier l later hsplit
    rw [hspots] at hlists
    refine ⟨?_, ?_⟩
    · rw [hlists.group?_eq, hnumber, List.getElem?_append_right (Nat.le_refl _), Nat.sub_self]
      rfl
    · rw [hnumber, hlists.exists_markerAt?_iff hothers fun t ht =>
        before_end_of_mem eastAsian l.line 0 ht]
      exact not_congr (and_congr_left' (exists_overlaying_iff eastAsian l.line 0 before))

/-- A vowel sign without any width and a letter behind it: both are markers at the first cell, and
the pointer never finds the second. -/
theorem second_marker_unreachable :
    let g : Group := ⟨⟨.vfx, ['x'], {}, 0, 11, "[cue:vfx|x]".toList⟩, []⟩
    let h : Group := ⟨⟨.sound, ['y'], {}, 12, 25, "[cue:sound|y]".toList⟩, []⟩
    let l : RenderedLine := ⟨0, [.marker ['\u1161'] g, .marker ['b'] h]⟩
    let m := ofLines false [l]
    (Line.renderAll none [⟨0, 0, "[cue:vfx|x]\u1161[cue:sound|y]b".toList, false⟩]).1 = [l] ∧
      ([l].map (·.line)).Nodup ∧ m.group? 1 = some h ∧ ¬ (∃ c, m.markerAt? c = some 1) ∧
      ¬ (m.regions.filter (·.line = l.line)).Pairwise (fun r s => r.stop ≤ s.first) := by
  intro g h l m
  have hlines : ([l].map (·.line)).Nodup := by simp
  obtain ⟨-, hregions, hmarkers⟩ := hoverable_iff false [l] hlines
  have hover : Overlaid false [.marker ['\u1161'] g] :=
    ⟨[], ['\u1161'], g, [], rfl, by decide +kernel, by simp⟩
  obtain ⟨hgroup, hreach⟩ := hmarkers [] l [] [.marker ['\u1161'] g] ['b'] h [] rfl rfl
  refine ⟨by decide +kernel, hlines, hgroup, fun hfound => ?_, fun hdisjoint => ?_⟩
  · exact hreach.mp hfound ⟨hover, by decide +kernel⟩
  · exact (hregions l (List.mem_singleton_self l)).2.mp hdisjoint _ ['b'] h [] rfl hover

end MarkerMap

end CuedProse
