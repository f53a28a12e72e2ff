import CuedProse.Proofs.Markup.Hidden
import CuedProse.Proofs.Reading.Window
import CuedProse.Proofs.Visible.LineText
import CuedProse.Proofs.Visible.Select

/-!
# What a position reveals

Progress is a floating-point number, and the product that turns it into a count rounds as it likes.
All that is used here is that the count is in range; everything else follows from the count.

* `raw_position`: the offset that a count reaches cuts no cue, and so many visible characters are in
  front of it.
* `windowAt_lines`, `mem_windowAt_reveal`: which lines the window shows, and how much of each.
* `windowAt_text`: joined with line feeds, this is the text up to the offset.
* `position_reveals`: all this of the position at any progress.
-/
namespace CuedProse.Chapter

variable (text : Text) (o : Options)

theorem visible_position_le (p : Float) :
    ((ofText text o).position p).visible ≤ (ofText text o).projection.totalVisible :=
  Nat.min_le_right _ _

theorem totalVisible_ofText :
    (ofText text o).projection.totalVisible = Projection.count (Markup.free text) text.length :=
  Projection.totalVisible_ofSpans text.length _

/-- The offset that a count in range reaches cuts no cue and has so many visible characters in front
of it; the whole count reaches the end of the text. -/
theorem raw_position {v : Nat} (hv : v ≤ (ofText text o).projection.totalVisible) :
    let raw := (ofText text o).projection.toRaw v
    raw ≤ text.length ∧ (∀ c ∈ Markup.cues text, ¬ (c.start ≤ raw ∧ raw < c.stop)) ∧
      Projection.count (Markup.free text) raw = v ∧
      (v = (ofText text o).projection.totalVisible → raw = text.length) := by
  intro raw
  have htotal := totalVisible_ofText text o
  rcases Nat.lt_or_eq_of_le hv with hlt | heq
  · rw [htotal] at hlt
    obtain ⟨hraw, hfree, hcount⟩ : raw < text.length ∧ Markup.free text raw = true ∧
        Projection.count (Markup.free text) raw = v :=
      Projection.toRaw_ofSpans_free text.length _ hlt
    refine ⟨Nat.le_of_lt hraw, fun c hc hin => ?_, hcount, fun heq => by omega⟩
    have := Markup.free_eq_true.mp hfree c hc hin.1
    omega
  · have hall : Projection.count (Markup.free text) text.length ≤ v :=
      Nat.le_of_eq (htotal.symm.trans heq.symm)
    have hraw : raw = text.length := Projection.toRaw_ofSpans_end text.length _ hall
    refine ⟨Nat.le_of_eq hraw, fun c hc hin => ?_, ?_, fun _ => hraw⟩
    · have := Markup.stop_le_length hc
      omega
    · rw [hraw, heq, htotal]

/-! ## The window -/

theorem windowAt_lines (place : Place) :
    ((ofText text o).windowAt place).map LineReveal.line =
      List.range' (place.line + 1 - min o.window (place.line + 1))
        (min o.window (place.line + 1)) := by
  have hfirst : place.line + 1 - o.window =
      place.line + 1 - min o.window (place.line + 1) := by omega
  have hcount : place.line + 1 - (place.line + 1 - o.window) =
      min o.window (place.line + 1) := by omega
  have hoptions : (ofText text o).options.window = o.window := rfl
  rw [windowAt, hoptions, hcount, hfirst, List.map_map]
  exact List.map_id _

theorem mem_windowAt_reveal {place : Place} {w : LineReveal}
    (hw : w ∈ (ofText text o).windowAt place) :
    w.length = (ofText text o).lines.length w.line ∧
      w.revealed = if w.line < place.line then w.length else place.char := by
  have hreveal := (mem_windowAt hw).2
  have hlength : w.length = (ofText text o).lines.length w.line :=
    congrArg LineReveal.length hreveal
  rw [hlength]
  exact ⟨rfl, congrArg LineReveal.revealed hreveal⟩

/-- What is revealed of the lines of the window, joined with line feeds, is the text from its first
line up to the place reached. -/
theorem windowAt_text {place : Place} (ho : 0 < o.window)
    (hline : place.line < (Text.lines text).length)
    (hchar : place.char ≤ (LineTable.ofText text).length place.line) :
    ['\n'].intercalate (((ofText text o).windowAt place).map fun w =>
        Text.lineHead text w.line w.revealed) =
      Text.slice text ((LineTable.ofText text).start (place.line + 1 - o.window))
        ((LineTable.ofText text).start place.line + place.char) := by
  obtain ⟨first, n, hfirst, hn⟩ : ∃ first n, place.line + 1 - o.window = first ∧
      first + n = place.line := ⟨_, place.line - (place.line + 1 - o.window), rfl, by omega⟩
  have hwindow : (ofText text o).windowAt place =
      (List.range' (place.line + 1 - o.window)
        (place.line + 1 - (place.line + 1 - o.window))).map ((ofText text o).revealOf place) := rfl
  have hcount : place.line + 1 - first = n + 1 := by omega
  -- the lines before the last one are whole
  have hwhole : (List.range' first n).map (fun i => Text.lineHead text i
      (if i < place.line then (LineTable.ofText text).length i else place.char)) =
        (List.range' first n).map (Text.lineAt text) := by
    refine List.map_congr_left fun i hi => ?_
    rw [List.mem_range'_1] at hi
    have hlt : i < place.line := by omega
    rw [if_pos hlt, ← LineTable.length_lineAt (Nat.lt_trans hlt hline)]
    exact List.take_length
  have hlast : Text.lineHead text place.line
      (if place.line < place.line then (LineTable.ofText text).length place.line
        else place.char) = (Text.lineAt text place.line).take place.char := by
    rw [if_neg (Nat.lt_irrefl _)]
    rfl
  rw [hwindow, hfirst, hcount, List.map_map, List.range'_1_concat, List.map_append]
  rw [← hn] at hline hchar
  have hjoin := LineTable.slice_lines hline hchar
  rw [hn] at hjoin
  rw [← hjoin, ← hwhole, ← hlast, hn]
  rfl

/-- **A position describes exactly the text it reveals.** Whatever the progress, the count of
visible characters is in range; the raw offset cuts no cue, has so many visible characters in front
of it, and is the end of the text if all are revealed. The place is that offset. The window holds
the last lines up to the place, as many as it can show, all but the last one as a whole, and what it
reveals is the text from its first line up to the offset. -/
theorem position_reveals (text : Text) (o : Options) (ho : 0 < o.window) (p : Float) :
    let ch := ofText text o
    let pos := ch.position p
    let shown := min o.window (pos.place.line + 1)
    pos.visible ≤ ch.projection.totalVisible ∧
      (∀ c ∈ ch.cues, ¬ (c.start ≤ pos.raw ∧ pos.raw < c.stop)) ∧
      (List.range pos.raw).countP (Markup.free text) = pos.visible ∧
      (pos.visible = ch.projection.totalVisible → pos.raw = text.length) ∧
      (pos.place.line < ch.lines.size ∧
        ch.lines.start pos.place.line + pos.place.char = pos.raw ∧
        pos.place.char ≤ ch.lines.length pos.place.line) ∧
      pos.window.map LineReveal.line = List.range' (pos.place.line + 1 - shown) shown ∧
      (∀ w ∈ pos.window, w.length = ch.lines.length w.line ∧
        w.revealed = if w.line < pos.place.line then w.length else pos.place.char) ∧
      ['\n'].intercalate (pos.window.map fun w => Text.lineHead text w.line w.revealed) =
        Text.slice text (ch.lines.start pos.startLine) pos.raw := by
  intro ch pos shown
  have hvisible := visible_position_le text o p
  obtain ⟨hraw, huncut, hcount, hend⟩ := raw_position text o hvisible
  have hline : pos.place.line < (Text.lines text).length :=
    (LineTable.place_spec text pos.raw).1
  obtain ⟨hplace, hchar⟩ := LineTable.place_exact hraw
  have hstart : pos.startLine = pos.place.line + 1 - o.window := startLine_position text o p ho
  refine ⟨hvisible, huncut, hcount, hend, ⟨?_, hplace, hchar⟩, windowAt_lines text o pos.place,
    fun w hw => mem_windowAt_reveal text o hw, ?_⟩
  · exact Nat.lt_of_lt_of_eq hline (LineTable.size_ofText text).symm
  · rw [hstart]
    exact (windowAt_text text o ho hline hchar).trans (congrArg _ hplace)

/-- The reveal ends behind a cue, in front of the first letter of the third line; the line before it
holds nothing but another cue. -/
theorem position_reveals_of_cue_line :
    let text := "ab\n[cue:vfx|x]\n[cue:vfx|y]c\nd".toList
    let o : Options := { window := 2 }
    let pos := (ofText text o).position 0.6
    0 < o.window ∧ pos.visible = 4 ∧ pos.raw = 26 ∧
      ['\n'].intercalate (pos.window.map fun w => Text.lineHead text w.line w.revealed) =
        Text.slice text ((ofText text o).lines.start pos.startLine) pos.raw ∧
      Text.slice text ((ofText text o).lines.start pos.startLine) pos.raw =
        "[cue:vfx|x]\n[cue:vfx|y]".toList := by
  intro text o pos
  obtain ⟨-, -, -, -, -, -, -, htext⟩ := position_reveals text o (by decide) 0.6
  exact ⟨by decide, by decide +kernel, by decide +kernel, htext, by decide +kernel⟩

end CuedProse.Chapter
