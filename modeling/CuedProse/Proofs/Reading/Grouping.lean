import CuedProse.Proofs.Line.Parted
import CuedProse.Proofs.Reading.Crossing
import CuedProse.Proofs.Reading.Prose
import CuedProse.Proofs.Visible.LineText

/-!
# Markers and groups

A chapter groups its cues over the whole text, where a line feed is one more white space. A frame
groups what is revealed of each line, and glues the groups together while no letter comes. Yet a
marker never ends inside a group of the chapter.

* `revealedLines_parted`, `revealedLines_cues`: rendered from the first line, neighbouring groups
  have ink between them, and together they have the cues up to the revealed offset.
* `rendering_blocks`: so they are blocks of groups of the chapter.
* `render_groups`: a rendering with a window shows the last of them.
* `frame_groups`: so does a frame, and no marker of it splits a group.
-/
namespace CuedProse

open Line

namespace Chapter

variable (text : Text) (o : Options)

theorem revealedLines_parted {place : Place} (hline : place.line < (Text.lines text).length) :
    let all := renderAll none ((ofText text o).revealedLines place)
    (all.1.flatMap RenderedLine.groups ++ all.2.toList).IsChain fun g h =>
      InkBetween text g.stop h.start := by
  intro all
  obtain ⟨reach, hparted⟩ : ∃ reach,
      Parted text ((all.1.flatMap RenderedLine.groups).reverse ++ []) all.2 reach := by
    refine renderAll_parted (.nil text 0) (fun s hs => ?_) ?_
    · obtain ⟨i, hi, rfl⟩ := List.mem_map.mp hs
      have hlt : i < (Text.lines text).length :=
        Nat.lt_of_le_of_lt (Nat.lt_succ_iff.mp (List.mem_range.mp hi)) hline
      exact ⟨Nat.zero_le _, (shown_slice hlt).1.trans (LineTable.lineAt_le_drop hlt)⟩
    · refine List.pairwise_map.mpr (List.pairwise_lt_range.imp_of_mem fun {i j} hi hj hij => ?_)
      have hjn : j < (Text.lines text).length :=
        Nat.lt_of_le_of_lt (Nat.lt_succ_iff.mp (List.mem_range.mp hj)) hline
      have hin : i < (Text.lines text).length := Nat.lt_trans hij hjn
      have hshown : ((ofText text o).slice ((ofText text o).revealOf place i)).shown.length ≤
          (LineTable.ofText text).length i :=
        LineTable.length_lineAt hin ▸ (shown_slice hin).1.length_le
      exact Nat.le_trans (Nat.add_le_add_left hshown _)
        (Nat.le_of_lt (LineTable.stop_lt_start hij hjn))
  have hforward := hparted.forward
  rwa [List.append_nil, List.reverse_reverse] at hforward

theorem revealedLines_cues (raw : Nat) :
    let all := renderAll none ((ofText text o).revealedLines ((LineTable.ofText text).place raw))
    Group.allCues (all.1.flatMap RenderedLine.groups ++ all.2.toList) =
      (Markup.cues text).filter (·.stop ≤ raw) := by
  intro all
  -- a window that begins with the first line
  let wide : Options := { o with window := ((LineTable.ofText text).place raw).line + 1 }
  have hwindow := windowAt_map_slice text wide ((LineTable.ofText text).place raw)
  have hcues := window_cues text wide raw (Nat.succ_pos _)
  rw [hwindow, Nat.sub_self, List.drop_zero, LineTable.start_zero] at hcues
  have hall :=
    renderAll_cues none ((ofText text o).revealedLines ((LineTable.ofText text).place raw))
  have hpending : Group.allCues all.2.toList = waiting all.2 := by
    cases all.2 <;> simp [waiting]
  rw [Group.allCues_append, hpending]
  refine hall.trans (hcues.trans ?_)
  simp

theorem groups_cues_ordered : Trigger.Ordered (Group.allCues (Markup.groups text)) := by
  rw [Markup.allCues_groups]
  exact ⟨fun c => Markup.start_lt_stop, Markup.cues_ordered text⟩

/-- Up to an offset, a group is first cues of itself, so only white space is between neighbours. -/
theorem upTo_isChain {raw : Nat} {g : Group} (hg : g ∈ Markup.groups text)
    (hfirst : g.first.stop ≤ raw) : (g.upTo raw).cues.IsChain (Group.joined text · ·) := by
  have hclosed :=
    (List.pairwise_flatMap.mp ((groups_cues_ordered text).stop_le_closed raw)).1 g hg
  have hall := Markup.groups_isChain text g hg
  rw [← List.takeWhile_append_dropWhile (p := fun c => decide (c.stop ≤ raw)) (l := g.cues)] at hall
  rw [Group.cues_upTo hfirst, ← (Trigger.while_eq_filter hclosed).1]
  exact hall.left_of_append

/-- **A rendering shows blocks of groups.** The groups of the markers and the one that waits are
made of the groups of the chapter that begin in front of the revealed offset, of which only the last
one may be cut. -/
theorem rendering_blocks (raw : Nat) :
    let all := renderAll none ((ofText text o).revealedLines ((LineTable.ofText text).place raw))
    ∃ (blocks : List (List Group)) (behind : List Group),
      Markup.groups text = blocks.flatten ++ behind ∧ (∀ g ∈ behind, raw < g.first.stop) ∧
      Group.ShowBlocks raw blocks (all.1.flatMap RenderedLine.groups ++ all.2.toList) := by
  intro all
  have hordered := groups_cues_ordered text
  obtain ⟨shown, behind, hgroups, hfirst, hwhole, hbehind, hcues⟩ :=
    Group.exists_shown (hordered.stop_lt.imp Nat.le_of_lt) raw
  have hchain : ∀ g ∈ shown, (g.upTo raw).cues.IsChain (Group.joined text · ·) := fun g hg =>
    upTo_isChain text (hgroups ▸ List.mem_append_left _ hg) (hfirst g hg)
  have hparted : (all.1.flatMap RenderedLine.groups ++ all.2.toList).IsChain fun g h =>
      Group.joined text g.last h.first = false :=
    (revealedLines_parted text o (LineTable.place_spec text raw).1).imp fun _ _ hink =>
      hink.joined_eq_false
  have hall := revealedLines_cues text o raw
  rw [← Markup.allCues_groups, hcues] at hall
  obtain ⟨blocks, hblocks, hnonempty, hmap⟩ := Group.exists_blocks hchain hparted hall
  rw [hblocks] at hgroups hfirst hwhole
  refine ⟨blocks, behind, hgroups, hbehind, hnonempty, hfirst, hwhole, hmap.trans ?_⟩
  refine List.map_congr_left fun gs hgs => Group.allCues_map_upTo fun g hg => ?_
  exact hfirst g (List.mem_flatten.mpr ⟨gs, hgs, hg⟩)

/-- A rendering shows the last groups of the one that begins with the first line, and all of them if
it begins there as well. -/
theorem render_groups (ho : 0 < o.window) (p : Float) :
    let pos := (ofText text o).position p
    let all := renderAll none ((ofText text o).revealedLines pos.place)
    let out := (ofText text o).render pos
    ∃ earlier, all.1.flatMap RenderedLine.groups ++ all.2.toList =
        earlier ++ (out.1.flatMap RenderedLine.groups ++ out.2.toList) ∧
      (pos.startLine = 0 → earlier = []) := by
  intro pos all out
  have hout : out = (all.1.drop pos.startLine, all.2) := by
    rw [show pos.startLine = pos.place.line + 1 - o.window from startLine_position text o p ho]
    exact render_eq text o ho p
  refine ⟨(all.1.take pos.startLine).flatMap RenderedLine.groups, ?_, fun hzero => ?_⟩
  · rw [hout, ← List.append_assoc, ← List.flatMap_append, List.take_append_drop]
  · rw [hzero]
    rfl

end Chapter

namespace Session

/-- **A marker never splits a group of the chapter.** The groups of the markers of a frame, and last
the one that waits, are made of neighbouring blocks of neighbouring groups of the chapter, without
the cues that end behind the revealed offset; only the last group of the last block can have such
cues. No group that begins in front of the offset is left out behind the blocks, and none in front
of them if the frame begins with the first line. So cues of one group never stand at two places, and
a frame has no more markers than the chapter has groups. -/
theorem frame_groups (text : Text) (o : Options) (ho : 0 < o.window) (r : Reader) (p : Float) :
    let ch := Chapter.ofText text o
    let out := ({ chapter := ch, reader := r } : Session).update p
    let markers := out.2.lines.flatMap RenderedLine.groups
    let parts := markers ++ out.1.reader.pending.toList
    (∃ (before : List Group) (blocks : List (List Group)) (behind : List Group),
      ch.groups = before ++ blocks.flatten ++ behind ∧
        Group.ShowBlocks out.2.position.raw blocks parts ∧
        (out.2.position.startLine = 0 → before = []) ∧
        ∀ g ∈ behind, out.2.position.raw < g.first.stop) ∧
    (∀ g ∈ ch.groups, ∀ c ∈ g.cues, ∀ d ∈ g.cues, ∀ (i j : Nat) (a b : Group),
      parts[i]? = some a → parts[j]? = some b → c ∈ a.cues → d ∈ b.cues → i = j) ∧
    markers.length ≤ ch.groups.length := by
  intro ch out markers parts
  obtain ⟨blocks, behind, hgroups, hbehind, hblocks⟩ :=
    Chapter.rendering_blocks text o out.2.position.raw
  obtain ⟨earlier, hparts, hwide⟩ := Chapter.render_groups text o ho p
  have hshow : Group.ShowBlocks out.2.position.raw blocks (earlier ++ parts) := hparts ▸ hblocks
  obtain ⟨before, rest, hsplit, hlength, hrest⟩ := hshow.of_append
  have hchapter : ch.groups = before.flatten ++ rest.flatten ++ behind := by
    rw [← List.flatten_append, ← hsplit]
    exact hgroups
  have hordered := Chapter.groups_cues_ordered text
  have hinfix : rest.flatten <:+: ch.groups := ⟨before.flatten, behind, hchapter.symm⟩
  refine ⟨⟨_, rest, behind, hchapter, hrest, fun hzero => ?_, hbehind⟩,
    fun g hg c hc d hd i j a b ha hb hca hdb => ?_, ?_⟩
  · -- a frame that begins with the first line has nothing in front of it
    rw [hwide hzero, List.length_nil, List.length_eq_zero_iff] at hlength
    rw [hlength]
    rfl
  · exact hrest.index_eq hordered.start_lt_stop hordered.apart hinfix.sublist hg hc hd ha hb hca hdb
  · calc markers.length
        ≤ parts.length := by simp only [parts, List.length_append, Nat.le_add_right]
      _ = rest.length := hrest.length_eq
      _ ≤ rest.flatten.length := Group.length_blocks_le hrest.nonempty
      _ ≤ ch.groups.length := hinfix.length_le

/-- The two cues of a group on different lines share the marker of the last line, the only one that
the frame shows. -/
theorem frame_groups_over_line_break :
    0 < ({ window := 1 } : Options).window ∧
      let ch := Chapter.ofText "[cue:vfx|a]\n[cue:vfx|b]c".toList { window := 1 }
      let out := ({ chapter := ch, reader := {} } : Session).update 1
      (out.2.lines.flatMap RenderedLine.groups).length ≤ ch.groups.length ∧
        out.2.lines = [⟨1, [.marker ['c'] ⟨⟨.vfx, ['a'], {}, 0, 11, "[cue:vfx|a]".toList⟩,
          [⟨.vfx, ['b'], {}, 12, 23, "[cue:vfx|b]".toList⟩]⟩]⟩] := by
  obtain ⟨-, -, hlength⟩ :=
    frame_groups "[cue:vfx|a]\n[cue:vfx|b]c".toList { window := 1 } (by decide) {} 1
  exact ⟨by decide, hlength, by decide +kernel⟩

end Session

end CuedProse
