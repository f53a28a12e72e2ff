import CuedProse.Proofs.Text.Pick
import CuedProse.Proofs.Visible.Places

/-!
# The text of the lines

`LineTable` says where each line starts; here is what stands there.

* `lineAt_le_drop`: the text goes on with a line where the line starts.
* `slice_line`, `slice_line_succ`: so the slice from there is the line, and then its line feed.
* `slice_lines`: a slice that begins with a line and ends inside another one is these lines, the
  last one cut, joined with line feeds.
* `place_exact`: the place of an offset in the text is exactly that offset, also at a line feed.
-/
namespace CuedProse

namespace Text

theorem append_lineFeed_split (t : Text) (i : Nat) :
    t ++ ['\n'] =
      ((lines t).take i).flatMap (· ++ ['\n']) ++ ((lines t).drop i).flatMap (· ++ ['\n']) := by
  rw [← List.flatMap_append, List.take_append_drop, append_lineFeed_eq]

theorem take_offsetOf (t : Text) (i : Nat) :
    (t ++ ['\n']).take (offsetOf (lines t) i) = ((lines t).take i).flatMap (· ++ ['\n']) := by
  rw [append_lineFeed_split t i, offsetOf, List.take_left]

theorem drop_offsetOf (t : Text) (i : Nat) :
    (t ++ ['\n']).drop (offsetOf (lines t) i) = ((lines t).drop i).flatMap (· ++ ['\n']) := by
  rw [append_lineFeed_split t i, offsetOf, List.drop_left]

end Text

namespace LineTable

variable {t : Text} {i : Nat}

/-- Where line `i` starts, the text goes on with it and, but for the last line, a line feed. -/
theorem drop_start (hi : i < (Text.lines t).length) :
    ∃ rest, t.drop ((ofText t).start i) ++ ['\n'] = Text.lineAt t i ++ '\n' :: rest := by
  have hstart := start_eq hi
  have hend := stop_le hi
  have hdrop := Text.drop_offsetOf t i
  rw [← hstart, List.drop_append_of_le_length (by omega), List.drop_eq_getElem_cons hi,
    List.flatMap_cons, ← Text.lineAt_eq hi] at hdrop
  exact ⟨_, hdrop.trans (List.append_assoc ..)⟩

theorem lineAt_le_drop (hi : i < (Text.lines t).length) :
    Text.lineAt t i <+: t.drop ((ofText t).start i) := by
  obtain ⟨rest, hrest⟩ := drop_start hi
  have hend := stop_le hi
  have hlength := length_lineAt hi
  refine List.prefix_of_prefix_length_le (List.prefix_append _ ('\n' :: rest))
    (hrest ▸ List.prefix_append _ ['\n']) ?_
  rw [List.length_drop]
  omega

theorem slice_line (hi : i < (Text.lines t).length) {k : Nat} (hk : k ≤ (ofText t).length i) :
    Text.slice t ((ofText t).start i) ((ofText t).start i + k) = (Text.lineAt t i).take k := by
  have hle := lineAt_le_drop hi
  have hlength := length_lineAt hi
  rw [Text.slice, List.drop_take, Nat.add_sub_cancel_left]
  obtain ⟨rest, hrest⟩ := hle
  rw [← hrest, List.take_append_of_le_length (by omega)]

theorem slice_line_succ (hi : i + 1 < (Text.lines t).length) :
    Text.slice t ((ofText t).start i) ((ofText t).start (i + 1)) = Text.lineAt t i ++ ['\n'] := by
  have hlt : i < (Text.lines t).length := Nat.lt_of_succ_lt hi
  obtain ⟨rest, hrest⟩ := drop_start hlt
  have hlength := length_lineAt hlt
  have hnext := start_succ hi
  have hend := stop_le hi
  rw [Text.slice, List.drop_take, hnext, Nat.add_assoc, Nat.add_sub_cancel_left, ← hlength]
  calc (t.drop ((ofText t).start i)).take ((Text.lineAt t i).length + 1)
      = (t.drop ((ofText t).start i) ++ ['\n']).take ((Text.lineAt t i).length + 1) := by
        rw [List.take_append_of_le_length]
        rw [List.length_drop]
        omega
    _ = Text.lineAt t i ++ ['\n'] := by
        rw [hrest, List.take_length_add_append]
        rfl

/-- A slice that begins with a line and ends inside another one is the lines from the one to the
other, the last one cut, with line feeds between them. -/
theorem slice_lines {n k : Nat} (hn : i + n < (Text.lines t).length)
    (hk : k ≤ (ofText t).length (i + n)) :
    ['\n'].intercalate ((List.range' i n).map (Text.lineAt t) ++ [(Text.lineAt t (i + n)).take k]) =
      Text.slice t ((ofText t).start i) ((ofText t).start (i + n) + k) := by
  induction n generalizing i with
  | zero => simpa using (slice_line hn hk).symm
  | succ n ih =>
    have hshift : i + (n + 1) = i + 1 + n := by omega
    rw [hshift] at hn hk ⊢
    rw [List.range'_succ, List.map_cons, List.cons_append,
      List.intercalate_cons_of_ne_nil (by simp), ih hn hk, ← slice_line_succ (by omega)]
    refine Text.slice_append_slice t (start_mono (Nat.le_succ i) (by omega)) ?_
    exact Nat.le_trans (start_mono (Nat.le_add_right _ n) hn) (Nat.le_add_right _ k)

theorem stop_last (hi : i + 1 = (Text.lines t).length) :
    (ofText t).start i + (ofText t).length i = t.length := by
  have hlt : i < (Text.lines t).length := hi ▸ Nat.lt_succ_self i
  have hall := Text.offsetOf_lines t
  rw [← hi, Text.offsetOf_succ hlt, ← start_eq hlt, ← length_eq hlt] at hall
  omega

/-- The place of an offset is exactly that offset. -/
theorem place_exact {raw : Nat} (hraw : raw ≤ t.length) :
    (ofText t).start ((ofText t).place raw).line + ((ofText t).place raw).char = raw ∧
      ((ofText t).place raw).char ≤ (ofText t).length ((ofText t).place raw).line := by
  obtain ⟨hline, hstart, hbehind, hchar⟩ := place_spec t raw
  rw [Nat.min_eq_left hraw] at hstart hbehind hchar
  -- the offset is in its line or at the line feed behind it
  have hend : raw ≤ (ofText t).start ((ofText t).place raw).line +
      (ofText t).length ((ofText t).place raw).line := by
    by_cases hlast : ((ofText t).place raw).line + 1 = (Text.lines t).length
    · have := stop_last hlast
      omega
    · have hnext : ((ofText t).place raw).line + 1 < (Text.lines t).length := by omega
      have := hbehind _ (Nat.lt_add_one _) hnext
      have := start_succ hnext
      omega
  omega

end LineTable

end CuedProse
