import CuedProse.Proofs.Visible.LineText

/-!
# Places and offsets

An offset in a text and a place on its lines are two names for one position.

* `intercalate_lines`: the lines of a text, joined with line feeds, are the text.
* `count_take_start_add`: in front of a place on a line there are as many line feeds as lines.
* `place_start_add`: so the offset of a place has no other place.
* `line_place`: so the line of an offset can be counted in the text.
* `place_lt_place`: so the order of the offsets is the reading order of the places.
* `place_offset`: all this of every text.
-/
namespace CuedProse

/-! ## Reading order -/

namespace Place

/-- A place is in front of another one if its line is, or on the same line its character is. -/
instance : LT Place := ⟨fun p q => p.line < q.line ∨ p.line = q.line ∧ p.char < q.char⟩

instance : LE Place := ⟨fun p q => p.line < q.line ∨ p.line = q.line ∧ p.char ≤ q.char⟩

theorem lt_iff {p q : Place} : p < q ↔ p.line < q.line ∨ p.line = q.line ∧ p.char < q.char :=
  Iff.rfl

theorem le_refl (p : Place) : p ≤ p := .inr ⟨rfl, Nat.le_refl _⟩

theorem le_of_lt {p q : Place} (h : p < q) : p ≤ q := by
  rcases lt_iff.mp h with hline | ⟨hline, hchar⟩
  · exact .inl hline
  · exact .inr ⟨hline, Nat.le_of_lt hchar⟩

end Place

/-! ## Joining the lines -/

namespace Text

theorem map_lineAt_range {t : Text} {n : Nat} (h : n ≤ (lines t).length) :
    (List.range n).map (lineAt t) = (lines t).take n := by
  refine List.ext_getElem (by simp [h]) fun i hi _ => ?_
  rw [List.length_map, List.length_range] at hi
  rw [List.getElem_map, List.getElem_range, List.getElem_take, lineAt_eq (by omega)]

theorem intercalate_append_lineFeed {ls : List Text} (h : ls ≠ []) :
    ['\n'].intercalate ls ++ ['\n'] = ls.flatMap (· ++ ['\n']) := by
  induction ls with
  | nil => exact absurd rfl h
  | cons l ls ih =>
    cases ls with
    | nil => simp
    | cons m ls =>
      rw [List.intercalate_cons_of_ne_nil (by simp), List.flatMap_cons, ← ih (by simp)]
      simp only [List.append_assoc]

theorem intercalate_lines (t : Text) : ['\n'].intercalate (lines t) = t := by
  have hjoined := intercalate_append_lineFeed (splitOn_ne_nil '\n' t)
  rw [← lines, ← append_lineFeed_eq] at hjoined
  exact List.append_cancel_right hjoined

theorem count_flatMap_lineFeed {ls : List Text} (h : ∀ l ∈ ls, '\n' ∉ l) :
    (ls.flatMap (· ++ ['\n'])).count '\n' = ls.length := by
  induction ls with
  | nil => rfl
  | cons l ls ih =>
    obtain ⟨hl, hls⟩ := List.forall_mem_cons.mp h
    rw [List.flatMap_cons, List.count_append, List.count_append, List.count_eq_zero.mpr hl, ih hls,
      List.length_cons, List.count_singleton_self]
    omega

end Text

/-! ## From a place to its offset and back -/

namespace LineTable

variable {t : Text} {i k : Nat}

theorem take_start (hi : i < (Text.lines t).length) :
    t.take ((ofText t).start i) = ((Text.lines t).take i).flatMap (· ++ ['\n']) := by
  have hend := stop_le hi
  have htake := Text.take_offsetOf t i
  rwa [← start_eq hi, List.take_append_of_le_length (by omega)] at htake

/-- In front of a place there are as many line feeds as lines. -/
theorem count_take_start_add (hi : i < (Text.lines t).length) (hk : k ≤ (ofText t).length i) :
    (t.take ((ofText t).start i + k)).count '\n' = i := by
  have hbefore : ∀ l ∈ (Text.lines t).take i, '\n' ∉ l := fun l hl =>
    Text.lineFeed_not_mem_lines (List.mem_of_mem_take hl)
  have honLine : (t.drop ((ofText t).start i)).take k = (Text.lineAt t i).take k := by
    rw [← slice_line hi hk, Text.slice, List.drop_take, Nat.add_sub_cancel_left]
  have hrest : '\n' ∉ (Text.lineAt t i).take k := fun hmem =>
    Text.lineFeed_not_mem_lineAt t i (List.mem_of_mem_take hmem)
  rw [List.take_add, honLine, take_start hi, List.count_append, List.count_eq_zero.mpr hrest,
    Text.count_flatMap_lineFeed hbefore, List.length_take]
  omega

/-- The offset of a place on a line has that place and no other one. -/
theorem place_start_add (hi : i < (Text.lines t).length) (hk : k ≤ (ofText t).length i) :
    (ofText t).place ((ofText t).start i + k) = ⟨i, k⟩ := by
  have hend := stop_le hi
  obtain ⟨hline, -⟩ := place_spec t ((ofText t).start i + k)
  obtain ⟨hexact, hchar⟩ := place_exact (show (ofText t).start i + k ≤ t.length by omega)
  generalize (ofText t).place ((ofText t).start i + k) = p at hline hexact hchar
  -- both lines have the line feeds in front of the offset counted
  have hsame : p.line = i := by
    rw [← count_take_start_add hline hchar, hexact, count_take_start_add hi hk]
  rw [hsame] at hexact
  have : p.char = k := by omega
  rw [← hsame, ← this]

theorem place_min (t : Text) (raw : Nat) :
    (ofText t).place (min raw t.length) = (ofText t).place raw := by
  simp only [place, show (ofText t).totalRaw = t.length from rfl, Nat.min_assoc, Nat.min_self]

/-- The line of an offset has as many line feeds in front of it as there are before the offset. -/
theorem line_place (t : Text) (raw : Nat) :
    ((ofText t).place raw).line = (t.take (min raw t.length)).count '\n' := by
  obtain ⟨hline, -⟩ := place_spec t (min raw t.length)
  obtain ⟨hexact, hchar⟩ := place_exact (Nat.min_le_right raw t.length)
  have hcount := count_take_start_add hline hchar
  rw [hexact, place_min] at hcount
  exact hcount.symm

theorem raw_eq (hi : i < (Text.lines t).length) (c : Nat) :
    (ofText t).raw ⟨i, c⟩ = (ofText t).start i + min c ((ofText t).length i) := by
  unfold raw
  rw [entries_getElem? hi, start_eq hi, length_eq hi]

theorem raw_place (t : Text) (raw : Nat) :
    (ofText t).raw ((ofText t).place raw) = min raw t.length := by
  obtain ⟨hline, -⟩ := place_spec t raw
  obtain ⟨hexact, hchar⟩ := place_exact (Nat.min_le_right raw t.length)
  rw [place_min] at hexact hchar
  rw [raw_eq hline, Nat.min_eq_left hchar, hexact]

theorem place_raw (hi : i < (Text.lines t).length) (c : Nat) :
    (ofText t).place ((ofText t).raw ⟨i, c⟩) = ⟨i, min c ((ofText t).length i)⟩ := by
  rw [raw_eq hi]
  exact place_start_add hi (Nat.min_le_right ..)

theorem place_lt_place {r s : Nat} (hrs : r < s) (hs : s ≤ t.length) :
    (ofText t).place r < (ofText t).place s := by
  have hr : r ≤ t.length := by omega
  obtain ⟨hrExact, -⟩ := place_exact hr
  obtain ⟨hsExact, -⟩ := place_exact hs
  -- no line feed gets lost when more of the text is read
  have hline : ((ofText t).place r).line ≤ ((ofText t).place s).line := by
    rw [line_place, line_place, Nat.min_eq_left hr, Nat.min_eq_left hs]
    exact (List.take_sublist_take_left (Nat.le_of_lt hrs)).count_le '\n'
  rcases Nat.lt_or_eq_of_le hline with hlt | heq
  · exact .inl hlt
  · rw [heq] at hrExact
    exact .inr ⟨heq, by omega⟩

/-- **Places and offsets correspond exactly.** The lines, joined with line feeds, are the text, and the
table says of each one where it starts and how long it is. Any offset, cut back to the text, has a
place: its line is the number of line feeds in front of it, its character is on that line, and the
place leads back to the offset. Any place on a line, cut back to the line, is the place of the offset
it leads to. The offsets of the text are in the reading order of their places. -/
theorem place_offset (text : Text) :
    let ls := ofText text
    ['\n'].intercalate ((List.range ls.size).map (Text.lineAt text)) = text ∧
      (∀ i < ls.size, Text.line? text i = some (Text.lineAt text i) ∧
        '\n' ∉ Text.lineAt text i ∧
        ls.start i = (((List.range i).map (Text.lineAt text)).flatMap (· ++ ['\n'])).length ∧
        ls.length i = (Text.lineAt text i).length) ∧
      (∀ raw, (ls.place raw).line = (text.take (min raw text.length)).count '\n' ∧
        (ls.place raw).char ≤ ls.length (ls.place raw).line ∧
        ls.raw (ls.place raw) = min raw text.length) ∧
      (∀ i < ls.size, ∀ c, ls.place (ls.raw ⟨i, c⟩) = ⟨i, min c (ls.length i)⟩) ∧
      ∀ r s, r ≤ s → s ≤ text.length →
        ls.place r ≤ ls.place s ∧ (r < s → ls.place r < ls.place s) := by
  intro ls
  have hsize : ls.size = (Text.lines text).length := size_ofText text
  refine ⟨?_, fun i hi => ?_, fun raw => ⟨line_place text raw, ?_, raw_place text raw⟩,
    fun i hi c => place_raw (hsize ▸ hi) c, fun r s hrs hs => ⟨?_, fun hlt => place_lt_place hlt hs⟩⟩
  · rw [hsize, Text.map_lineAt_range (Nat.le_refl _), List.take_length, Text.intercalate_lines]
  · rw [hsize] at hi
    refine ⟨?_, Text.lineFeed_not_mem_lineAt text i, ?_, (length_lineAt hi).symm⟩
    · rw [Text.line?, List.getElem?_eq_getElem hi, Text.lineAt_eq hi]
    · rw [Text.map_lineAt_range (Nat.le_of_lt hi)]
      exact start_eq hi
  · have hchar := (place_exact (Nat.min_le_right raw text.length)).2
    rwa [place_min] at hchar
  · rcases Nat.lt_or_eq_of_le hrs with hlt | heq
    · exact Place.le_of_lt (place_lt_place hlt hs)
    · exact heq ▸ Place.le_refl _

/-- Offset 3 is the line feed behind the first line, the third line is empty, and so is the one that
the line feed at the end opens. -/
theorem place_offset_of_empty_lines :
    let text := "uno\ndos\n\ntres\n".toList
    let ls := ofText text
    ls.place 3 = ⟨0, 3⟩ ∧ ls.place 8 = ⟨2, 0⟩ ∧ ls.place (ls.raw ⟨2, 7⟩) = ⟨2, 0⟩ ∧
      ls.raw (ls.place 99) = 14 ∧ ls.place 13 < ls.place 14 ∧ ls.place 14 = ⟨4, 0⟩ := by
  intro text ls
  obtain ⟨-, -, hback, hthere, horder⟩ := place_offset text
  exact ⟨by decide, by decide, hthere 2 (by decide) 7, (hback 99).2.2,
    (horder 13 14 (by decide) (by decide)).2 (by decide), by decide⟩

end LineTable

end CuedProse
