import CuedProse.Proofs.Text.Split
import CuedProse.Visible.Lines

/-!
# Where lines stand

* `start_eq`, `length_eq`: the table says of each line where it starts and how long it is.
* `start_succ`, `start_mono`: one line feed stands between two lines.
* `place_spec`: the line of an offset is the last one that starts at it or before it.
-/
namespace CuedProse

namespace Text

/-- The number of characters in front of line `i`, line feeds included. -/
def offsetOf (lines : List Text) (i : Nat) : Nat :=
  ((lines.take i).flatMap (· ++ ['\n'])).length

@[simp] theorem offsetOf_zero (lines : List Text) : offsetOf lines 0 = 0 := rfl

theorem offsetOf_succ {lines : List Text} {i : Nat} (h : i < lines.length) :
    offsetOf lines (i + 1) = offsetOf lines i + lines[i].length + 1 := by
  unfold offsetOf
  rw [List.take_succ_eq_append_getElem h, List.flatMap_append, List.length_append]
  simp only [List.flatMap_singleton, List.length_append, List.length_singleton]
  omega

theorem offsetOf_cons (l : Text) (lines : List Text) (i : Nat) :
    offsetOf (l :: lines) (i + 1) = l.length + 1 + offsetOf lines i := by
  unfold offsetOf
  rw [List.take_succ_cons, List.flatMap_cons, List.length_append, List.length_append]
  rfl

/-- A text with a line feed at its end is its lines, each with a line feed. -/
theorem append_lineFeed_eq (t : Text) : t ++ ['\n'] = (lines t).flatMap (· ++ ['\n']) := by
  cases hlines : lines t with
  | nil => exact absurd hlines (splitOn_ne_nil '\n' t)
  | cons f fs =>
    rw [(splitOn_eq_cons_iff.mp hlines).1]
    clear hlines
    induction fs generalizing f with
    | nil => simp
    | cons g fs ih =>
      calc f ++ (g :: fs).flatMap ('\n' :: ·) ++ ['\n']
          = f ++ ['\n'] ++ (g ++ fs.flatMap ('\n' :: ·) ++ ['\n']) := by simp
        _ = f ++ ['\n'] ++ (g :: fs).flatMap (· ++ ['\n']) := by rw [ih g]

/-- The lines and the line feeds between them are the whole text. -/
theorem offsetOf_lines (t : Text) : offsetOf (lines t) (lines t).length = t.length + 1 := by
  rw [offsetOf, List.take_length, ← append_lineFeed_eq, List.length_append, List.length_singleton]

theorem lineFeed_not_mem_lines {t l : Text} (h : l ∈ lines t) : '\n' ∉ l := by
  cases hlines : lines t with
  | nil =>
    rw [hlines] at h
    cases h
  | cons f fs => exact (splitOn_eq_cons_iff.mp hlines).2 l (hlines ▸ h)

/-- Line `i` of `t`, or nothing past the last one. -/
def lineAt (t : Text) (i : Nat) : Text := (line? t i).getD []

theorem lineAt_eq {t : Text} {i : Nat} (h : i < (lines t).length) : lineAt t i = (lines t)[i] := by
  simp [lineAt, line?, h]

theorem lineFeed_not_mem_lineAt (t : Text) (i : Nat) : '\n' ∉ lineAt t i := by
  unfold lineAt line?
  cases hl : (lines t)[i]? with
  | none => simp
  | some l => exact lineFeed_not_mem_lines (List.mem_of_getElem? hl)

theorem lines_pos (t : Text) : 0 < (lines t).length :=
  List.length_pos_iff.mpr (splitOn_ne_nil '\n' t)

end Text

namespace LineTable

theorem entriesFrom_getElem? (start : Nat) (lines : List Text) (i : Nat) :
    (entriesFrom start lines)[i]? =
      lines[i]?.map fun l => ⟨start + Text.offsetOf lines i, l.length⟩ := by
  induction lines generalizing start i with
  | nil => rfl
  | cons l lines ih =>
    rw [entriesFrom]
    cases i with
    | zero => rfl
    | succ i =>
      rw [List.getElem?_cons_succ, List.getElem?_cons_succ, ih, Text.offsetOf_cons]
      congr 1
      funext l'
      congr 1
      omega

variable {t : Text} {i : Nat}

theorem entries_getElem? (h : i < (Text.lines t).length) :
    (ofText t).entries[i]? = some ⟨Text.offsetOf (Text.lines t) i, (Text.lines t)[i].length⟩ := by
  unfold ofText
  rw [entriesFrom_getElem?, List.getElem?_eq_getElem h]
  simp

theorem size_ofText (t : Text) : (ofText t).entries.length = (Text.lines t).length := by
  unfold ofText
  generalize 0 = start
  induction Text.lines t generalizing start with
  | nil => rfl
  | cons l lines ih => rw [entriesFrom, List.length_cons, List.length_cons, ih]

theorem start_eq (h : i < (Text.lines t).length) :
    (ofText t).start i = Text.offsetOf (Text.lines t) i := by
  unfold start
  rw [entries_getElem? h]
  rfl

theorem length_eq (h : i < (Text.lines t).length) :
    (ofText t).length i = (Text.lines t)[i].length := by
  unfold length
  rw [entries_getElem? h]
  rfl

theorem length_lineAt (h : i < (Text.lines t).length) :
    (Text.lineAt t i).length = (ofText t).length i := by
  rw [Text.lineAt_eq h, length_eq h]

@[simp] theorem start_zero (t : Text) : (ofText t).start 0 = 0 := start_eq (Text.lines_pos t)

theorem start_succ (h : i + 1 < (Text.lines t).length) :
    (ofText t).start (i + 1) = (ofText t).start i + (ofText t).length i + 1 := by
  rw [start_eq h, start_eq (by omega), length_eq (by omega), Text.offsetOf_succ]

theorem stop_lt_start {j : Nat} (hij : i < j) (h : j < (Text.lines t).length) :
    (ofText t).start i + (ofText t).length i < (ofText t).start j := by
  induction hij with
  | refl =>
    have hnext := start_succ h
    simp only [Nat.succ_eq_add_one] at hnext ⊢
    omega
  | @step m hm ih =>
    have hlast := ih (by omega)
    have hnext := start_succ h
    simp only [Nat.succ_eq_add_one] at hnext ⊢
    omega

theorem start_mono {j : Nat} (hij : i ≤ j) (h : j < (Text.lines t).length) :
    (ofText t).start i ≤ (ofText t).start j := by
  rcases Nat.lt_or_eq_of_le hij with hlt | heq
  · have := stop_lt_start hlt h
    omega
  · exact Nat.le_of_eq (congrArg _ heq)

theorem stop_le (h : i < (Text.lines t).length) :
    (ofText t).start i + (ofText t).length i ≤ t.length := by
  have hall := Text.offsetOf_lines t
  rcases Nat.lt_or_eq_of_le (show i + 1 ≤ (Text.lines t).length from h) with hlt | heq
  · have hlast : (Text.lines t).length - 1 < (Text.lines t).length := by omega
    have hstop := stop_lt_start (show i < (Text.lines t).length - 1 by omega) hlast
    have hsucc := Text.offsetOf_succ hlast
    rw [show (Text.lines t).length - 1 + 1 = (Text.lines t).length by omega] at hsucc
    rw [start_eq hlast] at hstop
    omega
  · have hsucc := Text.offsetOf_succ h
    rw [heq] at hsucc
    rw [start_eq h, length_eq h]
    omega

theorem takeWhile_length {α : Type} (p : α → Bool) (l : List α) {k : Nat}
    (hk : (l.takeWhile p).length = k) :
    (∀ i x, i < k → l[i]? = some x → p x = true) ∧ ∀ x, l[k]? = some x → p x = false := by
  induction l generalizing k with
  | nil => exact ⟨by simp, by simp⟩
  | cons y l ih =>
    by_cases hy : p y = true
    · rw [List.takeWhile_cons_of_pos hy, List.length_cons] at hk
      obtain ⟨k, rfl⟩ : ∃ m, k = m + 1 := ⟨k - 1, by omega⟩
      obtain ⟨h1, h2⟩ := ih (show _ = k by omega)
      refine ⟨fun i x hi hx => ?_, fun x hx => h2 x (by simpa using hx)⟩
      cases i with
      | zero => cases hx; exact hy
      | succ i => exact h1 i x (by omega) (by simpa using hx)
    · rw [List.takeWhile_cons_of_neg hy, List.length_nil] at hk
      rw [← hk]
      refine ⟨fun i x hi => by omega, fun x hx => ?_⟩
      cases hx
      simpa using hy

/-- The line of an offset is the last one that starts at it or before it. -/
theorem place_spec (t : Text) (raw : Nat) :
    ((ofText t).place raw).line < (Text.lines t).length ∧
      (ofText t).start ((ofText t).place raw).line ≤ min raw t.length ∧
      (∀ j, ((ofText t).place raw).line < j → j < (Text.lines t).length →
        min raw t.length < (ofText t).start j) ∧
      ((ofText t).place raw).char =
        min (min raw t.length - (ofText t).start ((ofText t).place raw).line)
          ((ofText t).length ((ofText t).place raw).line) := by
  have hn := Text.lines_pos t
  -- the number of lines that start at the offset or before it
  obtain ⟨k, hk⟩ : ∃ k, ((ofText t).entries.takeWhile (·.start ≤ min raw t.length)).length = k :=
    ⟨_, rfl⟩
  obtain ⟨hbelow, habove⟩ := takeWhile_length _ _ hk
  have hkn : k ≤ (Text.lines t).length := by
    rw [← hk, ← size_ofText t]
    exact (List.takeWhile_sublist _).length_le
  have hk0 : 0 < k := by
    refine Nat.pos_of_ne_zero fun hz => ?_
    rw [hz] at habove
    have := habove _ (entries_getElem? hn)
    simp at this
  have hlast : k - 1 < (Text.lines t).length := by omega
  have hplace : (ofText t).place raw =
      ⟨k - 1, min (min raw t.length - (ofText t).start (k - 1)) ((ofText t).length (k - 1))⟩ := by
    unfold place
    rw [show (ofText t).totalRaw = t.length from rfl]
    simp only [hk, entries_getElem? hlast, start_eq hlast, length_eq hlast]
  rw [hplace]
  refine ⟨hlast, ?_, fun j hj hjn => ?_, rfl⟩
  · have := hbelow (k - 1) _ (by omega) (entries_getElem? hlast)
    rw [start_eq hlast]
    simpa using this
  · have hkj : k < (Text.lines t).length := by
      simp only at hj
      omega
    have hout := habove _ (entries_getElem? hkj)
    simp only [decide_eq_false_iff_not, Nat.not_le] at hout
    rw [← start_eq hkj] at hout
    have := start_mono (show k ≤ j by simp only at hj; omega) hjn
    omega

end LineTable

end CuedProse
