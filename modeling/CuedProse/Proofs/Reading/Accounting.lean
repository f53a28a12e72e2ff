import Mathlib.Data.List.Basic
import CuedProse.Proofs.Line.Markers
import CuedProse.Proofs.Visible.Places
import CuedProse.Reading.Session

/-!
# Which cues a frame shows

A rendering never sees the cues of its chapter: it scans what is revealed of each line once more.
Nevertheless the two agree.

* `LineTable.cues_eq_flatMap`: the cues of a text are those of its lines, one line after the other.
* `Chapter.window_cues`: what is revealed of the window has those cues of the chapter that open from
  its first line on and end at the revealed offset or before it.
* `frame_cues`: what a frame shows or leaves waiting is what waited before the window and then the
  cues from there up to the revealed offset.
-/
namespace CuedProse

namespace Cue

theorem shift_shift (a b : Nat) (c : Cue) : (c.shift a).shift b = c.shift (a + b) := by
  simp [shift, Nat.add_assoc]

@[simp] theorem map_shift_zero (cues : List Cue) : cues.map (shift 0) = cues := List.map_id cues

end Cue

namespace Markup

theorem cues_join (f : Text) (fs : List Text) :
    cues (f ++ fs.flatMap ('\n' :: ·)) =
      (List.range (fs.length + 1)).flatMap fun i =>
        (cues ((f :: fs)[i]?.getD [])).map (Cue.shift (Text.offsetOf (f :: fs) i)) := by
  induction fs generalizing f with
  | nil => simp
  | cons g fs ih =>
    rw [List.flatMap_cons, List.cons_append, cues_append_lineFeed, ih g, List.map_flatMap,
      List.length_cons, List.range_succ_eq_map (n := fs.length + 1), List.flatMap_cons,
      List.flatMap_map]
    congr 1
    · simp
    · refine List.flatMap_congr fun i _ => ?_
      rw [List.map_map, List.getElem?_cons_succ, Text.offsetOf_cons]
      refine List.map_congr_left fun c _ => ?_
      rw [Function.comp_apply, Cue.shift_shift, Nat.add_comm]

end Markup

/-! ## The cues of the lines -/

namespace LineTable

/-- The cues of line `i` of a text, at their place in the text. -/
def cuesAt (text : Text) (i : Nat) : List Cue :=
  (Markup.cues (Text.lineAt text i)).map (Cue.shift ((ofText text).start i))

/-- The cues of a text are those of its lines, one line after the other. -/
theorem cues_eq_flatMap (text : Text) :
    Markup.cues text = (List.range (Text.lines text).length).flatMap (cuesAt text) := by
  cases hlines : Text.lines text with
  | nil =>
    have := Text.lines_pos text
    simp [hlines] at this
  | cons f fs =>
    have hjoin := Markup.cues_join f fs
    rw [← (Text.splitOn_eq_cons_iff.mp hlines).1] at hjoin
    rw [hjoin, List.length_cons]
    refine List.flatMap_congr fun i hi => ?_
    have hlt : i < (Text.lines text).length := by
      rw [hlines]
      exact List.mem_range.mp hi
    rw [cuesAt, start_eq hlt, Text.lineAt, Text.line?, hlines]

variable {text : Text} {i : Nat}

theorem mem_cuesAt (hi : i < (Text.lines text).length) {c : Cue} (hc : c ∈ cuesAt text i) :
    (ofText text).start i ≤ c.start ∧ c.start < c.stop ∧
      c.stop ≤ (ofText text).start i + (ofText text).length i := by
  obtain ⟨d, hd, hcd⟩ := List.mem_map.mp hc
  have hlt := Markup.start_lt_stop hd
  have hle := Markup.stop_le_length hd
  rw [length_lineAt hi] at hle
  rw [← hcd]
  simp only [Cue.shift]
  omega

/-- The cues of the lines from `first` on that end at the offset `raw` or before it are those in
what is revealed of the lines up to the place of `raw`. -/
theorem filter_cuesAt (raw : Nat) {first : Nat} (hfirst : first ≤ ((ofText text).place raw).line)
    (hi : i < (Text.lines text).length) :
    (cuesAt text i).filter (fun c => (ofText text).start first ≤ c.start ∧ c.stop ≤ raw) =
      if first ≤ i ∧ i ≤ ((ofText text).place raw).line then
        (cuesAt text i).filter fun c => c.stop ≤ (ofText text).start i +
          if i < ((ofText text).place raw).line then (ofText text).length i
          else ((ofText text).place raw).char
      else [] := by
  obtain ⟨hline, hstart, hbehind, hchar⟩ := place_spec text raw
  have hend := stop_le hi
  split
  · rename_i hwithin
    refine List.filter_congr fun c hc => decide_eq_decide.mpr ?_
    obtain ⟨hopen, hlt, hclose⟩ := mem_cuesAt hi hc
    have hfrom := start_mono hwithin.1 hi
    split
    · rename_i hearlier
      have := stop_lt_start hearlier hline
      omega
    · -- the line that is being revealed
      have hlast : i = ((ofText text).place raw).line := by omega
      rw [← hlast] at hstart hchar
      omega
  · rename_i houtside
    rw [List.filter_eq_nil_iff]
    intro c hc hkept
    obtain ⟨hfrom, hto⟩ := of_decide_eq_true hkept
    obtain ⟨hopen, hlt, hclose⟩ := mem_cuesAt hi hc
    by_cases hbefore : i < first
    · have := stop_lt_start hbefore (Nat.lt_of_le_of_lt hfirst hline)
      omega
    · have := hbehind i (by omega) hi
      omega

end LineTable

/-! ## The window -/

namespace Chapter

variable (text : Text) (o : Options)

theorem slice_cues (i count length : Nat) :
    ((ofText text o).slice ⟨i, count, length⟩).cues =
      (LineTable.cuesAt text i).filter fun c =>
        c.stop ≤ (LineTable.ofText text).start i + count := by
  have hslice : (ofText text o).slice ⟨i, count, length⟩ =
      ⟨i, (LineTable.ofText text).start i, (Text.lineAt text i).take count,
        decide (count < length)⟩ := rfl
  rw [hslice]
  unfold Line.Slice.cues LineTable.cuesAt
  dsimp only
  rw [Markup.cues_take, List.filter_map]
  refine congrArg _ (List.filter_congr fun c _ => decide_eq_decide.mpr ?_)
  simp only [Cue.shift]
  omega

theorem range_eq_append {a b n : Nat} (hab : a ≤ b) (hbn : b ≤ n) :
    List.range n = List.range' 0 a ++ (List.range' a (b - a) ++ List.range' b (n - b)) := by
  have hinner := List.range'_append_1 (s := a) (m := b - a) (n := n - b)
  have houter := List.range'_append_1 (s := 0) (m := a) (n := n - a)
  rw [show a + (b - a) = b by omega, show b - a + (n - b) = n - a by omega] at hinner
  rw [Nat.zero_add, show a + (n - a) = n by omega] at houter
  rw [List.range_eq_range', hinner, houter]

/-- What is revealed of the window has the cues of the chapter from its first line up to the
revealed offset. -/
theorem window_cues (raw : Nat) (ho : 0 < o.window) :
    (((ofText text o).windowAt ((LineTable.ofText text).place raw)).map
        (ofText text o).slice).flatMap Line.Slice.cues =
      (Markup.cues text).filter fun c =>
        (LineTable.ofText text).start (((LineTable.ofText text).place raw).line + 1 - o.window) ≤
          c.start ∧ c.stop ≤ raw := by
  obtain ⟨hline, -⟩ := LineTable.place_spec text raw
  have hwindow : (ofText text o).options.window = o.window := rfl
  have hlines : (ofText text o).lines = LineTable.ofText text := rfl
  rw [LineTable.cues_eq_flatMap, List.filter_flatMap]
  unfold windowAt
  rw [hwindow, hlines]
  generalize hfirst : ((LineTable.ofText text).place raw).line + 1 - o.window = first
  have hle : first ≤ ((LineTable.ofText text).place raw).line := by omega
  have hfilter := fun i hi => LineTable.filter_cuesAt raw hle (i := i) hi
  generalize (LineTable.ofText text).place raw = place at hline hle hfilter ⊢
  have houtside : ∀ lines : List Nat,
      (∀ i ∈ lines, i < (Text.lines text).length ∧ ¬ (first ≤ i ∧ i ≤ place.line)) →
        lines.flatMap (fun i => (LineTable.cuesAt text i).filter fun c =>
          (LineTable.ofText text).start first ≤ c.start ∧ c.stop ≤ raw) = [] := by
    intro lines h
    rw [List.flatMap_eq_nil_iff]
    intro i hi
    rw [hfilter i (h i hi).1, if_neg (h i hi).2]
  -- the lines before the window, those of the window, and those behind it
  rw [range_eq_append (show first ≤ place.line + 1 by omega) hline, List.flatMap_append,
    List.flatMap_append, houtside (List.range' 0 first), houtside (List.range' (place.line + 1) _),
    List.nil_append, List.append_nil, List.map_map, List.flatMap_map]
  · apply List.flatMap_congr
    intro i hi
    rw [List.mem_range'_1] at hi
    rw [hfilter i (by omega), if_pos (by omega), Function.comp_apply, slice_cues]
  · intro i hi
    rw [List.mem_range'_1] at hi
    omega
  · intro i hi
    rw [List.mem_range'_1] at hi
    omega

theorem startLine_position (p : Float) (ho : 0 < o.window) :
    ((ofText text o).position p).startLine =
      ((LineTable.ofText text).place ((ofText text o).position p).raw).line + 1 - o.window := by
  have hwindow : ((ofText text o).position p).window = (ofText text o).windowAt
      ((LineTable.ofText text).place ((ofText text o).position p).raw) := rfl
  have hplace : ((ofText text o).position p).place =
      (LineTable.ofText text).place ((ofText text o).position p).raw := rfl
  have hoptions : (ofText text o).options.window = o.window := rfl
  unfold Position.startLine
  rw [hwindow, hplace]
  generalize (LineTable.ofText text).place ((ofText text o).position p).raw = place
  unfold windowAt
  dsimp only
  rw [hoptions]
  obtain ⟨k, hk⟩ : ∃ k, place.line + 1 - (place.line + 1 - o.window) = k + 1 :=
    ⟨place.line - (place.line + 1 - o.window), by omega⟩
  rw [hk, List.range'_succ]
  rfl

theorem carriedInto_zero : (ofText text o).carriedInto 0 = none := by
  have hcarried : (ofText text o).carried = carriedFrom none (wholeLines 0 0 (Text.lines text)) :=
    rfl
  unfold carriedInto
  rw [hcarried]
  cases Text.lines text <;> rfl

end Chapter

namespace Session

open Line

/-- **No cue of a frame is lost, doubled or early.** The cues of the markers that a frame shows, and
then those that wait for a letter behind it, are those that waited before its first line and then
the cues of the chapter that open from that line on and end at the revealed offset or before it. If
the frame begins with the first line, they are all cues that end there. -/
theorem frame_cues (text : Text) (o : Options) (ho : 0 < o.window) (r : Reader) (p : Float) :
    let ch := Chapter.ofText text o
    let out := ({ chapter := ch, reader := r } : Session).update p
    let raw := out.2.position.raw
    let first := out.2.position.startLine
    let seen := Group.allCues (out.2.lines.flatMap RenderedLine.groups) ++
      waiting out.1.reader.pending
    seen = waiting (ch.carriedInto first) ++
        ch.cues.filter (fun c => ch.lines.start first ≤ c.start ∧ c.stop ≤ raw) ∧
      (first = 0 → seen = ch.cues.filter fun c => c.stop ≤ raw) := by
  intro ch out raw first seen
  have hfirst : first = ((LineTable.ofText text).place raw).line + 1 - o.window :=
    Chapter.startLine_position text o p ho
  have hall := renderAll_cues (ch.carriedInto first)
    (((Chapter.ofText text o).windowAt ((LineTable.ofText text).place raw)).map
      (Chapter.ofText text o).slice)
  rw [Chapter.window_cues text o raw ho, ← hfirst] at hall
  refine ⟨hall, fun hzero => ?_⟩
  have hwaiting : waiting (ch.carriedInto 0) = [] := by
    rw [Chapter.carriedInto_zero]
    rfl
  refine hall.trans ?_
  rw [hzero, hwaiting, LineTable.start_zero]
  simp only [List.nil_append, Nat.zero_le, true_and]
  rfl

/-- A frame of one line shows the cue that an earlier line, out of sight, left waiting. -/
theorem frame_cues_of_line_before :
    0 < ({ window := 1 } : Options).window ∧
      let out := ({ chapter := .ofText "[cue:vfx|a]\nb".toList { window := 1 } } : Session).update 1
      Group.allCues (out.2.lines.flatMap RenderedLine.groups) ++ waiting out.1.reader.pending =
        [⟨.vfx, ['a'], {}, 0, 11, "[cue:vfx|a]".toList⟩] :=
  ⟨by decide, (frame_cues "[cue:vfx|a]\nb".toList { window := 1 } (by decide) {} 1).1.trans
    (by decide +kernel)⟩

end Session

end CuedProse
