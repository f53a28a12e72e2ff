import CuedProse.Text

/-!
# Picking characters by their offsets

* `pick_append`: picking goes through a text part by part.
* `pick_eq_self`, `pick_eq_nil`: what is left of a part that is visible as a whole, or not at all.
* `pick_mono`: more text gives more characters.
-/
namespace CuedProse.Text

/-- The characters of `t` that are visible, where `t` begins at the offset `start`. -/
def pick (visible : Nat → Bool) (start : Nat) : Text → Text
  | [] => []
  | c :: t =>
    if visible start then c :: pick visible (start + 1) t else pick visible (start + 1) t

variable {visible : Nat → Bool} {start : Nat} {t u : Text}

@[simp] theorem pick_nil : pick visible start [] = [] := rfl

theorem pick_append (t u : Text) :
    pick visible start (t ++ u) = pick visible start t ++ pick visible (start + t.length) u := by
  induction t generalizing start with
  | nil => rfl
  | cons c t ih =>
    simp only [List.cons_append, pick, ih, List.length_cons]
    rw [show start + 1 + t.length = start + (t.length + 1) by omega]
    split <;> rfl

theorem pick_sublist (visible : Nat → Bool) (start : Nat) (t : Text) :
    (pick visible start t).Sublist t := by
  induction t generalizing start with
  | nil => exact .slnil
  | cons c t ih =>
    unfold pick
    split
    · exact (ih _).cons_cons c
    · exact (ih _).cons c

/-- Only what is said about the offsets of the text matters. -/
theorem pick_congr {visible' : Nat → Bool} {start' : Nat}
    (h : ∀ i < t.length, visible (start + i) = visible' (start' + i)) :
    pick visible start t = pick visible' start' t := by
  induction t generalizing start start' with
  | nil => rfl
  | cons c t ih =>
    have hfirst : visible start = visible' start' := h 0 (Nat.succ_pos _)
    have hrest : pick visible (start + 1) t = pick visible' (start' + 1) t := by
      refine ih fun i hi => ?_
      rw [Nat.add_assoc, Nat.add_assoc, Nat.add_comm 1]
      exact h (i + 1) (Nat.succ_lt_succ hi)
    simp only [pick, hfirst, hrest]

theorem pick_eq_self (h : ∀ i < t.length, visible (start + i) = true) :
    pick visible start t = t := by
  have hall : pick visible start t = pick (fun _ => true) 0 t := pick_congr fun i hi => h i hi
  rw [hall]
  clear h hall
  generalize 0 = start
  induction t generalizing start with
  | nil => rfl
  | cons c t ih => rw [pick, if_pos rfl, ih]

theorem pick_eq_nil (h : ∀ i < t.length, visible (start + i) = false) :
    pick visible start t = [] := by
  have hnone : pick visible start t = pick (fun _ => false) 0 t := pick_congr fun i hi => h i hi
  rw [hnone]
  clear h hnone
  generalize 0 = start
  induction t generalizing start with
  | nil => rfl
  | cons c t ih => rw [pick, if_neg (by decide), ih]

theorem pick_mono (h : t <+: u) : pick visible start t <+: pick visible start u := by
  obtain ⟨v, hv⟩ := h
  rw [← hv, pick_append]
  exact List.prefix_append _ _

/-! ## Slices -/

theorem slice_length {a b : Nat} (h : b ≤ t.length) : (slice t a b).length = b - a := by
  rw [slice, List.length_drop, List.length_take, Nat.min_eq_left h]

theorem slice_append_drop (t : Text) {a b : Nat} (hab : a ≤ b) :
    slice t a b ++ t.drop b = t.drop a := by
  have hparts := congrArg (List.drop a) (List.take_append_drop b t)
  rw [List.drop_append, List.length_take] at hparts
  rw [← hparts]
  congr 1
  by_cases hb : b ≤ t.length
  · rw [show a - min b t.length = 0 by omega, List.drop_zero]
  · rw [List.drop_eq_nil_of_le (by omega), List.drop_nil]

theorem slice_append_slice (t : Text) {a b c : Nat} (hab : a ≤ b) (hbc : b ≤ c) :
    slice t a b ++ slice t b c = slice t a c := by
  have hparts := slice_append_drop (t.take c) hab
  rwa [slice, List.take_take, Nat.min_eq_left hbc] at hparts

end CuedProse.Text
