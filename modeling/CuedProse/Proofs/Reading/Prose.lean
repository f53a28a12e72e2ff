import CuedProse.Proofs.Line.Prose
import CuedProse.Proofs.Reading.Window

/-!
# A frame shows what is visible

Which characters are visible is known from the cues of the whole chapter. A frame is rendered line
by line from what is revealed, without them.

* `free_lineAt`: a line is visible where its own cues leave it free.
* `pick_shown`: what is revealed of a line has the same visible characters for the chapter and by
  itself.
* `frame_prose`: so a frame loses, adds and reorders nothing.
-/
namespace CuedProse

namespace LineTable

variable {text : Text} {i : Nat}

theorem free_lineAt (hi : i < (Text.lines text).length) {o : Nat}
    (ho : o < (ofText text).length i) :
    Markup.free text ((ofText text).start i + o) = Markup.free (Text.lineAt text i) o := by
  rw [Bool.eq_iff_iff, Markup.free_eq_true, Markup.free_eq_true, cues_eq_flatMap]
  constructor
  · intro hfree c hc hstart
    have hmem : c.shift ((ofText text).start i) ∈
        (List.range (Text.lines text).length).flatMap (cuesAt text) :=
      List.mem_flatMap.mpr ⟨i, List.mem_range.mpr hi, List.mem_map_of_mem hc⟩
    have := hfree _ hmem
    simp only [Cue.shift] at this
    omega
  · intro hfree c hc hstart
    obtain ⟨j, hj, hcj⟩ := List.mem_flatMap.mp hc
    have hjn := List.mem_range.mp hj
    obtain ⟨hopen, hlt, hclose⟩ := mem_cuesAt hjn hcj
    rcases Nat.lt_trichotomy j i with hbefore | hsame | hbehind
    · have := stop_lt_start hbefore hi
      omega
    · rw [hsame] at hcj
      obtain ⟨d, hd, hdc⟩ := List.mem_map.mp hcj
      have := hfree d hd
      rw [← hdc] at hstart ⊢
      simp only [Cue.shift] at hstart ⊢
      omega
    · have := stop_lt_start hbehind hjn
      omega

end LineTable

namespace Line

theorem exists_render_of_mem_zip {pending : Option Group} {slices : List Slice} {l : RenderedLine}
    {s : Slice} (h : (l, s) ∈ (renderAll pending slices).1.zip slices) :
    ∃ before, l = (render before s).1 := by
  induction slices generalizing pending with
  | nil => cases h
  | cons t slices ih =>
    rw [renderAll, List.zip_cons_cons] at h
    rcases List.mem_cons.mp h with h | h
    · obtain ⟨hl, hs⟩ := Prod.mk.inj h
      exact ⟨pending, by rw [hl, hs]⟩
    · exact ih h

end Line

namespace Chapter

variable {text : Text} {o : Options}

/-- What is shown of a line is a first part of it that cuts no cue. -/
theorem shown_slice {place : Place} {i : Nat} (hi : i < (Text.lines text).length) :
    let shown := ((ofText text o).slice ((ofText text o).revealOf place i)).shown
    shown <+: Text.lineAt text i ∧ Markup.Uncut (Text.lineAt text i) shown.length := by
  have hlength : (ofText text o).lines.length i = (Text.lineAt text i).length :=
    (LineTable.length_lineAt hi).symm
  generalize hcount : (if i < place.line then (ofText text o).lines.length i else place.char) = n
  have hslice : (ofText text o).slice ((ofText text o).revealOf place i) =
      ⟨i, (ofText text o).lines.start i, (Text.lineAt text i).take n,
        decide (n < (Text.lineAt text i).length)⟩ := by
    rw [← hlength, ← hcount]
    rfl
  rw [hslice]
  refine ⟨(Line.Slice.shown_le _).trans (List.take_prefix n _), ?_⟩
  unfold Line.Slice.shown
  dsimp only
  split
  · exact Markup.uncut_hideUnfinished _ n
  · rename_i hall
    rw [decide_eq_true_eq, Nat.not_lt] at hall
    rw [List.take_of_length_le hall]
    exact fun c hc => .inl (Markup.stop_le_length hc)

/-- The chapter and the line by itself agree on what is visible. -/
theorem pick_shown {place : Place} {i : Nat} (hi : i < (Text.lines text).length) :
    let shown := ((ofText text o).slice ((ofText text o).revealOf place i)).shown
    Text.pick (ofText text o).projection.isVisible ((ofText text o).lines.start i) shown =
      Text.pick (Markup.free shown) 0 shown := by
  intro shown
  obtain ⟨hfirst, huncut⟩ : shown <+: Text.lineAt text i ∧
      Markup.Uncut (Text.lineAt text i) shown.length := shown_slice hi
  rw [huncut.pick_free hfirst]
  refine Text.pick_congr fun j hj => ?_
  have hline : j < (LineTable.ofText text).length i := by
    rw [← LineTable.length_lineAt hi]
    exact Nat.lt_of_lt_of_le hj hfirst.length_le
  have hend : (LineTable.ofText text).start i + j < text.length := by
    have := LineTable.stop_le hi
    omega
  rw [Nat.zero_add, ← LineTable.free_lineAt hi hline]
  exact Projection.isVisible_ofSpans text.length _ hend

end Chapter

namespace Session

/-- **A frame shows the visible text.** Each line of a frame is what is visible of the revealed part
of its line, in the same order, without some of the horizontal space and of the closing brackets.
No fragment of it is empty prose, and no two prose fragments stand side by side. -/
theorem frame_prose (text : Text) (o : Options) (r : Reader) (p : Float) :
    let ch := Chapter.ofText text o
    let frame := (({ chapter := ch, reader := r } : Session).update p).2
    frame.lines.length = frame.position.window.length ∧
      ∀ l w, (l, w) ∈ frame.lines.zip frame.position.window →
        let shown := (ch.slice w).shown
        let visible := Text.pick ch.projection.isVisible (ch.lines.start w.line) shown
        l.line = w.line ∧ l.plain.Sublist visible ∧ Line.ink l.plain = Line.ink visible ∧
          Fragment.prose [] ∉ l.fragments ∧
          l.fragments.IsChain fun f g => f.group?.isSome ∨ g.group?.isSome := by
  intro ch frame
  have hlines : frame.lines = (Line.renderAll (ch.carriedInto frame.position.startLine)
      (frame.position.window.map ch.slice)).1 := rfl
  refine ⟨?_, fun l w hmem => ?_⟩
  · rw [hlines, Line.renderAll_length, List.length_map]
  · have hzip : (l, ch.slice w) ∈ frame.lines.zip (frame.position.window.map ch.slice) := by
      rw [List.zip_map_right]
      exact List.mem_map_of_mem (f := Prod.map id ch.slice) hmem
    obtain ⟨before, hl⟩ := Line.exists_render_of_mem_zip (hlines ▸ hzip)
    have hwindow : w ∈ ch.windowAt frame.position.place := (List.of_mem_zip hmem).2
    obtain ⟨hle, hw⟩ := Chapter.mem_windowAt hwindow
    have hplace : frame.position.place.line < (Text.lines text).length :=
      (LineTable.place_spec text frame.position.raw).1
    have hi : w.line < (Text.lines text).length := Nat.lt_of_le_of_lt hle hplace
    have hfeed : '\n' ∉ (ch.slice w).text := fun hmem =>
      Text.lineFeed_not_mem_lineAt text w.line (List.mem_of_mem_take hmem)
    have hkeeps := Line.render_keepsInk before (ch.slice w) hfeed
    have hbuilt := Line.render_wellBuilt before (ch.slice w)
    have hpick : Text.pick ch.projection.isVisible (ch.lines.start w.line)
        (ch.slice (ch.revealOf frame.position.place w.line)).shown = _ := Chapter.pick_shown hi
    rw [← hw] at hpick
    rw [← hl, ← hpick] at hkeeps
    rw [← hl] at hbuilt
    exact ⟨by rw [hl]; rfl, hkeeps.sublist, hkeeps.ink_eq, hbuilt.nonempty, hbuilt.apart⟩

/-- Two cues and the spaces around them are gone from this line, and so is a stray bracket. -/
theorem frame_prose_of_two_cues :
    let text := "a [cue:vfx|x] [cue:vfx|y] ]b".toList
    let ch := Chapter.ofText text {}
    let frame := (({ chapter := ch, reader := {} } : Session).update 1).2
    let l : RenderedLine := ⟨0, [.prose "a ".toList,
      .marker ['b'] ⟨⟨.vfx, ['x'], {}, 2, 13, "[cue:vfx|x]".toList⟩,
        [⟨.vfx, ['y'], {}, 14, 25, "[cue:vfx|y]".toList⟩]⟩]⟩
    let w : LineReveal := ⟨0, 28, 28⟩
    (l, w) ∈ frame.lines.zip frame.position.window ∧
      l.plain = "a b".toList ∧
      l.plain.Sublist
        (Text.pick ch.projection.isVisible (ch.lines.start w.line) (ch.slice w).shown) ∧
      Text.pick ch.projection.isVisible (ch.lines.start w.line) (ch.slice w).shown =
        "a   ]b".toList := by
  intro text ch frame l w
  have hmem : (l, w) ∈ frame.lines.zip frame.position.window := by decide +kernel
  exact ⟨hmem, by decide +kernel, ((frame_prose text {} {} 1).2 l w hmem).2.1, by decide +kernel⟩

end Session

end CuedProse
