import CuedProse.Proofs.Text.Pick

/-!
# Checked access

Taking a difference, reading a part of a list, searching a list by halves and cutting a text at a
byte offset all ask for something that may not be there. Here each of them has an answer just if it
is: no difference is below zero, no part ends before it begins or behind the list, and no cut goes
through a character.

* `sub?_of_le`, `clamp?_of_mem`, `partitionPoint?_eq_some`, `range?_takeWhile`: when there is one.
* `cutAt?_eq_some_iff`, `boundary_iff`: a text is cut between characters, which is just where its
  UTF-8 form can be cut.
* `byteSlice?_byteLength`: cuts at the byte offsets of characters take out what lies between these.
* `offsets_getElem?`: the table of these byte offsets.
-/
namespace CuedProse

/-! ## Numbers and lists -/

def sub? (a b : Nat) : Option Nat := if b ≤ a then some (a - b) else none

/-- The number from `low` to `high` that is closest to `n`, if there is one. -/
def clamp? (n low high : Nat) : Option Nat :=
  if low ≤ high then some (max low (min n high)) else none

theorem sub?_of_le {a b : Nat} (h : b ≤ a) : sub? a b = some (a - b) := if_pos h

theorem clamp?_of_mem {n low high : Nat} (hlow : low ≤ n) (hhigh : n ≤ high) :
    clamp? n low high = some n := by
  rw [clamp?, if_pos (Nat.le_trans hlow hhigh), Nat.min_eq_left hhigh, Nat.max_eq_right hlow]

section
variable {α β : Type}

/-- The elements of `l` from position `first` up to `last`, if these are in order and in `l`. -/
def range? (l : List α) (first last : Nat) : Option (List α) :=
  if first ≤ last ∧ last ≤ l.length then some ((l.take last).drop first) else none

/-- The position of the first element of `l` that does not pass the test, as a search by halves
finds it, if every element can be tested and none that passes stands behind one that does not. -/
def partitionPoint? (test : α → Option Bool) (l : List α) : Option Nat := do
  let answers ← l.mapM test
  if (answers.dropWhile id).all (! ·) then some (answers.takeWhile id).length else none

theorem mapM_eq_some {f : α → Option β} {g : α → β} {l : List α}
    (h : ∀ x ∈ l, f x = some (g x)) : l.mapM f = some (l.map g) := by
  induction l with
  | nil => rfl
  | cons x l ih =>
    obtain ⟨hx, hl⟩ := List.forall_mem_cons.mp h
    rw [List.mapM_cons, hx, ih hl]
    rfl

theorem partitionPoint?_eq_some {f : α → Option Bool} {p : α → Bool} {l : List α}
    (htest : ∀ x ∈ l, f x = some (p x))
    (hparted : l.Pairwise fun x y => p y = true → p x = true) :
    partitionPoint? f l = some (l.takeWhile p).length := by
  have hbehind : ((l.map p).dropWhile id).all (! ·) = true := by
    clear htest
    induction l with
    | nil => rfl
    | cons x l ih =>
      obtain ⟨hx, hl⟩ := List.pairwise_cons.mp hparted
      cases hp : p x with
      | true => simpa [hp] using ih hl
      | false =>
        have hnone : ∀ y ∈ l, p y = false := fun y hy =>
          Bool.eq_false_iff.mpr fun hpy => by simpa [hp] using hx y hy hpy
        simpa [hp] using hnone
  rw [partitionPoint?, mapM_eq_some htest]
  simp only [bind, Option.bind_some, hbehind, if_true, List.takeWhile_map, List.length_map]
  rfl

theorem getElem?_takeWhile_length {p q : α → Bool} (hpq : ∀ x, q x = ! p x) (l : List α) :
    l[(l.takeWhile p).length]? = l.find? q := by
  induction l with
  | nil => rfl
  | cons x l ih =>
    have hq := hpq x
    cases hp : p x with
    | true =>
      rw [List.takeWhile_cons_of_pos hp, List.length_cons, List.getElem?_cons_succ, ih,
        List.find?_cons_of_neg (by rw [hq, hp]; decide)]
    | false =>
      have hneg : ¬ p x = true := Bool.eq_false_iff.mp hp
      rw [List.takeWhile_cons_of_neg hneg, List.length_nil, List.getElem?_cons_zero,
        List.find?_cons_of_pos (by rw [hq, hp]; decide)]

theorem takeWhile_eq_append {p q : α → Bool} {l : List α}
    (hpq : ∀ x ∈ l, p x = true → q x = true) :
    l.takeWhile q = l.takeWhile p ++ (l.dropWhile p).takeWhile q := by
  induction l with
  | nil => rfl
  | cons x l ih =>
    obtain ⟨hx, hl⟩ := List.forall_mem_cons.mp hpq
    cases hp : p x with
    | true =>
      rw [List.takeWhile_cons_of_pos hp, List.dropWhile_cons_of_pos hp,
        List.takeWhile_cons_of_pos (hx hp), ih hl, List.cons_append]
    | false =>
      have hneg : ¬ p x = true := Bool.eq_false_iff.mp hp
      rw [List.takeWhile_cons_of_neg hneg, List.dropWhile_cons_of_neg hneg, List.nil_append]

/-- The part between the ends of two tests, the second of which asks for less. -/
theorem range?_takeWhile {p q : α → Bool} {l : List α} (hpq : ∀ x ∈ l, p x = true → q x = true) :
    range? l (l.takeWhile p).length (l.takeWhile q).length =
      some ((l.dropWhile p).takeWhile q) := by
  have hparts := takeWhile_eq_append hpq
  have hfirst : l.takeWhile q <+: l := List.takeWhile_prefix q
  have hle : (l.takeWhile p).length ≤ (l.takeWhile q).length := by
    rw [hparts, List.length_append]
    exact Nat.le_add_right ..
  rw [range?, if_pos ⟨hle, hfirst.length_le⟩, ← List.prefix_iff_eq_take.mp hfirst, hparts,
    List.drop_left]

theorem range?_dropWhile (p : α → Bool) (l : List α) :
    range? l (l.takeWhile p).length l.length = some (l.dropWhile p) := by
  have hle := (List.takeWhile_prefix (l := l) p).length_le
  have hdrop : l.drop (l.takeWhile p).length = l.dropWhile p := by
    calc l.drop (l.takeWhile p).length
        = (l.takeWhile p ++ l.dropWhile p).drop (l.takeWhile p).length := by
          rw [List.takeWhile_append_dropWhile]
      _ = l.dropWhile p := List.drop_left
  rw [range?, if_pos ⟨hle, Nat.le_refl _⟩, List.take_length, hdrop]

end

namespace Text

/-! ## Bytes -/

variable {t u v : Text} {n : Nat}

@[simp] theorem byteLength_append (t u : Text) :
    byteLength (t ++ u) = byteLength t + byteLength u := by
  induction t with
  | nil => exact (Nat.zero_add _).symm
  | cons c t ih => rw [List.cons_append, byteLength, byteLength, ih, Nat.add_assoc]

/-- The first `n` bytes of a text and what is left behind them, if no character is cut. -/
def cutAt? : Nat → Text → Option (Text × Text)
  | 0, t => some ([], t)
  | _ + 1, [] => none
  | n + 1, c :: t =>
    if c.utf8Size ≤ n + 1 then (cutAt? (n + 1 - c.utf8Size) t).map fun p => (c :: p.1, p.2)
    else none

/-- The bytes of a text from offset `start` up to `stop`, if these are in order and no character is
cut. -/
def byteSlice? (t : Text) (start stop : Nat) : Option Text := do
  let count ← sub? stop start
  let (_, rest) ← cutAt? start t
  let (part, _) ← cutAt? count rest
  return part

/-- The byte offsets of the characters of a text whose first byte is at `start`, and that of its
end. -/
def offsetsFrom (start : Nat) : Text → List Nat
  | [] => [start]
  | c :: t => start :: offsetsFrom (start + c.utf8Size) t

def offsets (t : Text) : List Nat := offsetsFrom 0 t

theorem cutAt?_append (v u : Text) : cutAt? (byteLength v) (v ++ u) = some (v, u) := by
  induction v with
  | nil => simp [byteLength, cutAt?]
  | cons c v ih =>
    have hsize := c.utf8Size_pos
    obtain ⟨n, hn⟩ : ∃ n, byteLength (c :: v) = n + 1 :=
      ⟨byteLength (c :: v) - 1, by rw [byteLength]; omega⟩
    have hrest : n + 1 - c.utf8Size = byteLength v := by rw [← hn, byteLength]; omega
    have hfits : c.utf8Size ≤ n + 1 := by rw [← hn, byteLength]; omega
    rw [hn, List.cons_append, cutAt?, if_pos hfits, hrest, ih]
    rfl

/-- A text is cut between two characters. -/
theorem cutAt?_eq_some_iff : cutAt? n t = some (v, u) ↔ t = v ++ u ∧ n = byteLength v := by
  constructor
  · intro h
    induction t generalizing n v with
    | nil =>
      cases n with
      | zero => cases h; exact ⟨rfl, rfl⟩
      | succ n => cases h
    | cons c t ih =>
      cases n with
      | zero => cases h; exact ⟨rfl, rfl⟩
      | succ n =>
        rw [cutAt?] at h
        split at h
        · rename_i hfits
          obtain ⟨⟨w, r⟩, hcut, heq⟩ := Option.map_eq_some_iff.mp h
          cases heq
          obtain ⟨ht, hn⟩ := ih hcut
          refine ⟨by rw [ht]; rfl, ?_⟩
          rw [byteLength, ← hn]
          omega
        · cases h
  · rintro ⟨rfl, rfl⟩
    exact cutAt?_append v u

theorem byteLength_ofList (t : Text) : (String.ofList t).utf8ByteSize = byteLength t := by
  induction t with
  | nil => rfl
  | cons c t ih =>
    rw [byteLength, ← ih, ← List.singleton_append, String.ofList_append, String.utf8ByteSize_append]
    simp

/-- A text is cut just where its UTF-8 form can be. -/
theorem boundary_iff :
    (cutAt? n t).isSome ↔ (⟨n⟩ : String.Pos.Raw).IsValid (String.ofList t) := by
  rw [Option.isSome_iff_exists, String.Pos.Raw.isValid_iff_exists_append]
  constructor
  · rintro ⟨⟨v, u⟩, h⟩
    obtain ⟨rfl, rfl⟩ := cutAt?_eq_some_iff.mp h
    exact ⟨String.ofList v, String.ofList u, String.ofList_append,
      String.Pos.Raw.ext (byteLength_ofList v).symm⟩
  · rintro ⟨a, b, hab, hn⟩
    refine ⟨(a.toList, b.toList), cutAt?_eq_some_iff.mpr ⟨?_, ?_⟩⟩
    · rw [← String.toList_append, ← hab, String.toList_ofList]
    · rw [← byteLength_ofList, String.ofList_toList]
      exact congrArg String.Pos.Raw.byteIdx hn

/-- No cut goes through a character of two bytes. -/
example : cutAt? 2 ['a', 'é'] = none := by decide

/-- Cuts at the byte offsets of two characters take out what lies between them. -/
theorem byteSlice?_byteLength (t : Text) {start stop : Nat} (h : start ≤ stop) :
    byteSlice? t (byteLength (t.take start)) (byteLength (t.take stop)) =
      some (slice t start stop) := by
  have hparts : t.take start ++ slice t start stop = t.take stop := by
    have happend := List.take_append_drop start (t.take stop)
    rwa [List.take_take, Nat.min_eq_left h] at happend
  have hcount : sub? (byteLength (t.take stop)) (byteLength (t.take start)) =
      some (byteLength (slice t start stop)) := by
    rw [← hparts, byteLength_append, sub?_of_le (Nat.le_add_right ..), Nat.add_sub_cancel_left]
  have hstart : cutAt? (byteLength (t.take start)) t = some (t.take start, t.drop start) :=
    cutAt?_eq_some_iff.mpr ⟨(List.take_append_drop ..).symm, rfl⟩
  have hstop : cutAt? (byteLength (slice t start stop)) (t.drop start) =
      some (slice t start stop, t.drop stop) :=
    cutAt?_eq_some_iff.mpr ⟨(slice_append_drop t h).symm, rfl⟩
  rw [byteSlice?, hcount, hstart]
  simp only [bind, Option.bind_some, hstop]
  rfl

theorem offsetsFrom_getElem? (t : Text) (start : Nat) {k : Nat} (h : k ≤ t.length) :
    (offsetsFrom start t)[k]? = some (start + byteLength (t.take k)) := by
  induction t generalizing start k with
  | nil =>
    obtain rfl := Nat.le_zero.mp h
    rfl
  | cons c t ih =>
    cases k with
    | zero => rfl
    | succ k =>
      rw [offsetsFrom, List.getElem?_cons_succ, ih _ (Nat.le_of_succ_le_succ h), List.take_succ_cons,
        byteLength, Nat.add_assoc]

theorem offsets_getElem? (t : Text) {k : Nat} (h : k ≤ t.length) :
    (offsets t)[k]? = some (byteLength (t.take k)) := by
  rw [offsets, offsetsFrom_getElem? t 0 h, Nat.zero_add]

end Text

end CuedProse
