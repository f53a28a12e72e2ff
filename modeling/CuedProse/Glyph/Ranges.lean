/-!
# Range tables

A property of characters is given by the code points that have it, as closed ranges. The ranges of a
table stand in ascending order and do not meet; a table carries the proof of it, so looking a
character up may leave at the first range that starts above it (`RangeTable.contains_iff`).
-/
namespace CuedProse.Glyph

namespace RangeTable

/-- Every range starts at or above `least`, is not empty, and ends below the next one. -/
def Ascending (least : Nat) : List (Nat × Nat) → Prop
  | [] => True
  | (lo, hi) :: rest => least ≤ lo ∧ lo ≤ hi ∧ Ascending (hi + 1) rest

instance : ∀ (least : Nat) (rs : List (Nat × Nat)), Decidable (Ascending least rs)
  | _, [] => isTrue trivial
  | least, (lo, hi) :: rest =>
    have := instDecidableAscending (hi + 1) rest
    inferInstanceAs (Decidable (least ≤ lo ∧ lo ≤ hi ∧ Ascending (hi + 1) rest))

end RangeTable

/-- Closed ranges of code points, in ascending order. -/
structure RangeTable where
  ranges : List (Nat × Nat)
  ascending : RangeTable.Ascending 0 ranges := by decide +kernel

namespace RangeTable

/-- Looks `n` up, leaving at the first range that starts above it. -/
def covers : List (Nat × Nat) → Nat → Bool
  | [], _ => false
  | (lo, hi) :: rest, n => decide (lo ≤ n) && (decide (n ≤ hi) || covers rest n)

def contains (t : RangeTable) (c : Char) : Bool := covers t.ranges c.toNat

theorem Ascending.lower {least : Nat} {rs : List (Nat × Nat)} (h : Ascending least rs) :
    ∀ r ∈ rs, least ≤ r.1 ∧ r.1 ≤ r.2 := by
  induction rs generalizing least with
  | nil => simp
  | cons r rest ih =>
    obtain ⟨lo, hi⟩ := r
    obtain ⟨h1, h2, h3⟩ := h
    intro s hs
    rcases List.mem_cons.mp hs with rfl | hs
    · exact ⟨h1, h2⟩
    · have := ih h3 s hs; omega

theorem covers_iff {least : Nat} {rs : List (Nat × Nat)} (h : Ascending least rs) (n : Nat) :
    covers rs n = true ↔ ∃ r ∈ rs, r.1 ≤ n ∧ n ≤ r.2 := by
  induction rs generalizing least with
  | nil => simp [covers]
  | cons r rest ih =>
    obtain ⟨lo, hi⟩ := r
    obtain ⟨h1, h2, h3⟩ := h
    simp only [covers, Bool.and_eq_true, Bool.or_eq_true, decide_eq_true_eq, List.mem_cons, ih h3]
    constructor
    · rintro ⟨hlo, hhi | ⟨s, hs, hn⟩⟩
      · exact ⟨_, Or.inl rfl, hlo, hhi⟩
      · exact ⟨s, Or.inr hs, hn⟩
    · rintro ⟨s, rfl | hs, hn⟩
      · exact ⟨hn.1, Or.inl hn.2⟩
      · have := h3.lower s hs
        exact ⟨by omega, Or.inr ⟨s, hs, hn⟩⟩

theorem contains_iff (t : RangeTable) (c : Char) :
    t.contains c = true ↔ ∃ r ∈ t.ranges, r.1 ≤ c.toNat ∧ c.toNat ≤ r.2 :=
  covers_iff t.ascending c.toNat

end RangeTable

end CuedProse.Glyph
