import CuedProse.Proofs.Reading.Accounting

/-!
# What a frame shows does not depend on the window

A frame renders only the lines of its window. The group that waits when the first of them begins
was found when the chapter was prepared, from whole lines and without any window.

* `carriedInto_eq`: what waits when a line begins is what rendering all lines before it leaves.
* `render_eq`: so a window shows the last lines of the rendering that begins with the first line.
* `frame_window`: a narrow window shows the last lines of a wide one.
-/
namespace CuedProse

namespace Chapter

theorem carriedFrom_getElem? (pending : Option Group) {slices : List Line.Slice} {i : Nat}
    (h : i < slices.length) :
    (carriedFrom pending slices)[i]? = some (Line.renderAll pending (slices.take i)).2 := by
  induction slices generalizing pending i with
  | nil => cases h
  | cons s slices ih =>
    cases i with
    | zero => rfl
    | succ i =>
      rw [carriedFrom, List.getElem?_cons_succ, ih _ (Nat.lt_of_succ_lt_succ h)]
      rfl

theorem wholeLines_getElem? (line start : Nat) (lines : List Text) (i : Nat) :
    (wholeLines line start lines)[i]? =
      lines[i]?.map fun t => ⟨line + i, start + Text.offsetOf lines i, t, false⟩ := by
  induction lines generalizing line start i with
  | nil => rfl
  | cons l lines ih =>
    rw [wholeLines]
    cases i with
    | zero => rfl
    | succ i =>
      rw [List.getElem?_cons_succ, List.getElem?_cons_succ, ih, Text.offsetOf_cons]
      congr 1
      funext t
      congr 1 <;> omega

theorem wholeLines_length (line start : Nat) (lines : List Text) :
    (wholeLines line start lines).length = lines.length := by
  induction lines generalizing line start with
  | nil => rfl
  | cons l lines ih => rw [wholeLines, List.length_cons, List.length_cons, ih]

/-- How much of line `i` is revealed when `place` is the place reached. -/
def revealOf (ch : Chapter) (place : Place) (i : Nat) : LineReveal :=
  ⟨i, if i < place.line then ch.lines.length i else place.char, ch.lines.length i⟩

/-- What is revealed of the lines from the first one up to the place reached. -/
def revealedLines (ch : Chapter) (place : Place) : List Line.Slice :=
  (List.range (place.line + 1)).map fun i => ch.slice (ch.revealOf place i)

theorem mem_windowAt {text : Text} {o : Options} {place : Place} {w : LineReveal}
    (h : w ∈ (ofText text o).windowAt place) :
    w.line ≤ place.line ∧ w = (ofText text o).revealOf place w.line := by
  obtain ⟨i, hi, hw⟩ := List.mem_map.mp h
  rw [List.mem_range'_1] at hi
  rw [← hw]
  exact ⟨by simp only; omega, rfl⟩

section
variable (text : Text) (o : Options)

theorem slice_revealOf {place : Place} {i : Nat} (hi : i < place.line)
    (hn : i < (Text.lines text).length) :
    (ofText text o).slice ((ofText text o).revealOf place i) =
      ⟨i, Text.offsetOf (Text.lines text) i, (Text.lines text)[i], false⟩ := by
  have hslice : (ofText text o).slice ((ofText text o).revealOf place i) =
      ⟨i, (LineTable.ofText text).start i,
        (Text.lineAt text i).take (if i < place.line then (LineTable.ofText text).length i
          else place.char),
        decide ((if i < place.line then (LineTable.ofText text).length i else place.char) <
          (LineTable.ofText text).length i)⟩ := rfl
  rw [hslice, if_pos hi, LineTable.start_eq hn, LineTable.length_eq hn, Text.lineAt_eq hn,
    List.take_length]
  simp

/-- What waits when a line begins is what rendering all lines before it leaves waiting. -/
theorem carriedInto_eq {place : Place} {i : Nat} (hi : i ≤ place.line)
    (hn : place.line < (Text.lines text).length) :
    (ofText text o).carriedInto i =
      (Line.renderAll none (((ofText text o).revealedLines place).take i)).2 := by
  have hlength := wholeLines_length 0 0 (Text.lines text)
  have hwhole : (wholeLines 0 0 (Text.lines text)).take i =
      ((ofText text o).revealedLines place).take i := by
    refine List.ext_getElem? fun j => ?_
    by_cases hj : j < i
    · rw [List.getElem?_take_of_lt hj, List.getElem?_take_of_lt hj, wholeLines_getElem?,
        List.getElem?_eq_getElem (show j < (Text.lines text).length by omega), revealedLines,
        List.getElem?_map, List.getElem?_range (by omega), Option.map_some, Option.map_some,
        slice_revealOf text o (by omega) (by omega)]
      simp
    · rw [List.getElem?_take_eq_none (by omega), List.getElem?_take_eq_none (by omega)]
  have hcarried : (ofText text o).carried = carriedFrom none (wholeLines 0 0 (Text.lines text)) :=
    rfl
  unfold carriedInto
  rw [hcarried, carriedFrom_getElem? none (by omega), hwhole]
  rfl

/-- The window of a place holds the last lines up to it. -/
theorem windowAt_map_slice (place : Place) :
    ((ofText text o).windowAt place).map (ofText text o).slice =
      ((ofText text o).revealedLines place).drop (place.line + 1 - o.window) := by
  have hwindow : (ofText text o).windowAt place =
      (List.range' (place.line + 1 - o.window)
        (place.line + 1 - (place.line + 1 - o.window))).map ((ofText text o).revealOf place) := rfl
  rw [hwindow, revealedLines, ← List.map_drop, List.map_map, List.range_eq_range',
    List.drop_range']
  simp [Function.comp_def]

/-- A rendering shows the last lines of the one that begins with the first line, and leaves the same
group waiting. -/
theorem render_eq (ho : 0 < o.window) (p : Float) :
    let place := ((ofText text o).position p).place
    let all := Line.renderAll none ((ofText text o).revealedLines place)
    (ofText text o).render ((ofText text o).position p) =
      (all.1.drop (place.line + 1 - o.window), all.2) := by
  intro place all
  have hline : place.line < (Text.lines text).length :=
    (LineTable.place_spec text ((ofText text o).position p).raw).1
  have hfirst : ((ofText text o).position p).startLine = place.line + 1 - o.window :=
    startLine_position text o p ho
  have hrender : (ofText text o).render ((ofText text o).position p) =
      Line.renderAll ((ofText text o).carriedInto ((ofText text o).position p).startLine)
        (((ofText text o).windowAt place).map (ofText text o).slice) := rfl
  rw [hrender, hfirst, windowAt_map_slice,
    carriedInto_eq text o (show place.line + 1 - o.window ≤ place.line by omega) hline]
  generalize hk : place.line + 1 - o.window = k
  have hall := Line.renderAll_append none (((ofText text o).revealedLines place).take k)
    (((ofText text o).revealedLines place).drop k)
  rw [List.take_append_drop] at hall
  have hlength : (Line.renderAll none (((ofText text o).revealedLines place).take k)).1.length =
      k := by
    rw [Line.renderAll_length, List.length_take, revealedLines, List.length_map, List.length_range]
    omega
  rw [show all = _ from hall, List.drop_left' hlength]

end

end Chapter

namespace Session

/-- **A frame does not depend on the window.** The lines of a frame are the last ones of a frame
with a wider window, as many as there are, and the same group waits behind them. They are also the
last lines of the rendering that begins with the first line of the text and no group. -/
theorem frame_window (text : Text) (policy : Policy) (n m : Nat) (hn : 0 < n) (hm : n ≤ m)
    (r : Reader) (p : Float) :
    let ch := Chapter.ofText text { window := n, policy }
    let narrow := ({ chapter := ch, reader := r } : Session).update p
    let wide := ({ chapter := .ofText text { window := m, policy }, reader := r } :
      Session).update p
    let place := narrow.2.position.place
    let all := Line.renderAll none (ch.revealedLines place)
    narrow.2.lines.length = min n (place.line + 1) ∧
      narrow.2.lines = wide.2.lines.drop (wide.2.lines.length - narrow.2.lines.length) ∧
      narrow.1.reader.pending = wide.1.reader.pending ∧
      narrow.2.lines = all.1.drop (place.line + 1 - n) ∧
      narrow.1.reader.pending = all.2 := by
  intro ch narrow wide place all
  have hnarrow : (narrow.2.lines, narrow.1.reader.pending) =
      (all.1.drop (place.line + 1 - n), all.2) :=
    Chapter.render_eq text { window := n, policy } hn p
  have hwide : (wide.2.lines, wide.1.reader.pending) =
      (all.1.drop (place.line + 1 - m), all.2) :=
    Chapter.render_eq text { window := m, policy } (Nat.lt_of_lt_of_le hn hm) p
  obtain ⟨hlines, hpending⟩ := Prod.mk.inj hnarrow
  obtain ⟨hlines', hpending'⟩ := Prod.mk.inj hwide
  have hall : all.1.length = place.line + 1 := by
    rw [Line.renderAll_length, Chapter.revealedLines, List.length_map, List.length_range]
  refine ⟨?_, ?_, hpending.trans hpending'.symm, hlines, hpending⟩
  · rw [hlines, List.length_drop, hall]
    omega
  · rw [hlines, hlines', List.drop_drop, List.length_drop, List.length_drop, hall]
    congr 1
    omega

/-- The cue of a line that only the wider window shows has its marker in both. -/
theorem frame_window_of_line_before :
    0 < 1 ∧ 1 ≤ 2 ∧
      let narrow := ({ chapter := .ofText "a[cue:vfx|x]\nb".toList { window := 1 } } :
        Session).update 1
      let wide := ({ chapter := .ofText "a[cue:vfx|x]\nb".toList { window := 2 } } :
        Session).update 1
      narrow.1.reader.pending = wide.1.reader.pending ∧
      wide.2.lines.drop (wide.2.lines.length - narrow.2.lines.length) =
        [⟨1, [.marker ['b'] ⟨⟨.vfx, ['x'], {}, 1, 12, "[cue:vfx|x]".toList⟩, []⟩]⟩] := by
  obtain ⟨-, hlines, hpending, -⟩ := frame_window "a[cue:vfx|x]\nb".toList .once 1 2
    (by decide) (by decide) {} 1
  exact ⟨by decide, by decide, hpending, hlines.symm.trans (by decide +kernel)⟩

end Session

end CuedProse
