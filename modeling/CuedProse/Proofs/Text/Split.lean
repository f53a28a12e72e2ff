import CuedProse.Text

/-!
# Splitting a text

* `splitOn_eq_cons_iff`: the pieces of a text are the only texts without the separator that give
  the text back when they are joined.
* `slice_eq_iff`: a slice inside a text is what stands between what is before and what is behind it.
-/
namespace CuedProse.Text

theorem splitOn_append {sep : Char} {f : Text} (h : sep ∉ f) (rest : Text) :
    splitOn sep (f ++ sep :: rest) = f :: splitOn sep rest := by
  induction f with
  | nil => simp [splitOn]
  | cons c f ih =>
    simp only [List.mem_cons, not_or] at h
    rw [List.cons_append, splitOn, if_neg (Ne.symm h.1), ih h.2]

theorem splitOn_of_not_mem {sep : Char} {f : Text} (h : sep ∉ f) : splitOn sep f = [f] := by
  induction f with
  | nil => rfl
  | cons c f ih =>
    simp only [List.mem_cons, not_or] at h
    rw [splitOn, if_neg (Ne.symm h.1), ih h.2]

theorem splitOn_ne_nil (sep : Char) (t : Text) : splitOn sep t ≠ [] := by
  cases t with
  | nil => simp [splitOn]
  | cons c t =>
    unfold splitOn
    split
    · simp
    · split <;> simp

/-- The first piece ends at the first separator, if there is one. -/
theorem splitOn_cases (sep : Char) (t : Text) :
    (sep ∉ t ∧ splitOn sep t = [t]) ∨
      ∃ f rest, sep ∉ f ∧ t = f ++ sep :: rest ∧ splitOn sep t = f :: splitOn sep rest := by
  by_cases h : sep ∈ t
  · obtain ⟨f, rest, rfl, hf⟩ := List.eq_append_cons_of_mem h
    exact .inr ⟨f, rest, hf, rfl, splitOn_append hf rest⟩
  · exact .inl ⟨h, splitOn_of_not_mem h⟩

theorem splitOn_eq_cons_iff {sep : Char} {t f : Text} {fs : List Text} :
    splitOn sep t = f :: fs ↔
      t = f ++ fs.flatMap (sep :: ·) ∧ ∀ g ∈ f :: fs, sep ∉ g := by
  constructor
  · intro h
    induction fs generalizing t f with
    | nil =>
      rcases splitOn_cases sep t with ⟨hn, ht⟩ | ⟨g, rest, -, -, ht⟩
      · rw [ht] at h
        cases h
        simpa using hn
      · rw [ht, List.cons.injEq] at h
        exact absurd h.2 (splitOn_ne_nil sep rest)
    | cons g fs ih =>
      rcases splitOn_cases sep t with ⟨-, ht⟩ | ⟨f', rest, hf, rfl, ht⟩
      · rw [ht] at h
        cases h
      · rw [ht, List.cons.injEq] at h
        obtain ⟨rfl, hr⟩ := h
        obtain ⟨rfl, hg⟩ := ih hr
        refine ⟨by simp, ?_⟩
        intro x hx
        rcases List.mem_cons.mp hx with rfl | hx
        · exact hf
        · exact hg x hx
  · intro hin
    obtain ⟨rfl, hg⟩ := hin
    induction fs generalizing f with
    | nil => simpa using splitOn_of_not_mem (hg f (by simp))
    | cons g fs ih =>
      rw [List.flatMap_cons, List.cons_append, splitOn_append (hg f (by simp)),
        ih fun x hx => hg x (List.mem_cons_of_mem _ hx)]

theorem slice_eq_iff {t u : Text} {start stop : Nat} (hu : u ≠ []) (hs : stop ≤ t.length) :
    slice t start stop = u ↔
      ∃ before rest, t = before ++ u ++ rest ∧ before.length = start ∧
        start + u.length = stop := by
  constructor
  · intro h
    have hl := congrArg List.length h
    have : 0 < u.length := List.length_pos_iff.mpr hu
    simp only [slice, List.length_drop, List.length_take] at hl
    refine ⟨t.take start, t.drop stop, ?_, ?_, by omega⟩
    · have ht : (t.take stop).take start = t.take start := by
        rw [List.take_take, Nat.min_eq_left (by omega)]
      rw [← h, slice, ← ht, List.take_append_drop, List.take_append_drop]
    · rw [List.length_take]
      omega
  · intro hin
    obtain ⟨before, rest, rfl, rfl, rfl⟩ := hin
    rw [slice, ← List.length_append, List.take_left, List.drop_left]

end CuedProse.Text
