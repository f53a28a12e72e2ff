import Mathlib.Data.Nat.Digits.Defs
import Mathlib.Tactic.Ring
import CuedProse.CommandLine.Arguments

/-!
# Numerals on a command line

* `Writes`: a numeral and the number it writes.
* `readDigits_eq_some_iff`: what reading digits one by one comes to.
* `readNumber?_eq_some_iff`: reading finds a number just where one is written.
-/
namespace CuedProse.CommandLine

def digitValue (c : Char) : Nat := c.toNat - '0'.toNat

/-- `value` writes the number `n`: decimal digits, perhaps with a plus sign in front, of a number of
32 bits that is not zero. -/
def Writes (value : String) (n : Nat) : Prop :=
  ∃ digits : List Char, digits ≠ [] ∧ (∀ c ∈ digits, c.isDigit = true) ∧
    (value.toList = digits ∨ value.toList = '+' :: digits) ∧
    n = Nat.ofDigits 10 (digits.reverse.map digitValue) ∧ 1 ≤ n ∧ n < 2 ^ 32

theorem readDigits_eq_some_iff {n m : Nat} {digits : List Char} :
    readDigits n digits = some m ↔ (∀ c ∈ digits, c.isDigit = true) ∧
      m = n * 10 ^ digits.length + Nat.ofDigits 10 (digits.reverse.map digitValue) := by
  induction digits generalizing n with
  | nil =>
    have hzero : n * 10 ^ ([] : List Char).length +
        Nat.ofDigits 10 (([] : List Char).reverse.map digitValue) = n := by simp
    rw [hzero]
    simp [readDigits, eq_comm (a := n)]
  | cons c digits ih =>
    unfold readDigits
    by_cases hc : c.isDigit = true
    · have hvalue : (10 * n + digitValue c) * 10 ^ digits.length +
            Nat.ofDigits 10 (digits.reverse.map digitValue) =
          n * 10 ^ (c :: digits).length +
            Nat.ofDigits 10 ((c :: digits).reverse.map digitValue) := by
        simp only [List.length_cons, List.reverse_cons, List.map_append, List.map_cons,
          List.map_nil, Nat.ofDigits_append, Nat.ofDigits_singleton, List.length_map,
          List.length_reverse]
        ring
      rw [if_pos hc, List.forall_mem_cons, ← hvalue]
      simp only [hc, true_and]
      exact ih
    · rw [if_neg hc, List.forall_mem_cons]
      simp [hc]

/-- A plus sign is no digit, so what is left of a numeral without it is told by the numeral. -/
theorem exists_digits (value : String) :
    ∃ digits : List Char,
      (readNumber? value = if digits.isEmpty then none else
        (readDigits 0 digits).filter fun n => decide (0 < n) && decide (n < UInt32.size)) ∧
      ∀ ds : List Char, (∀ c ∈ ds, c.isDigit = true) →
        ((value.toList = ds ∨ value.toList = '+' :: ds) ↔ ds = digits) := by
  have hplus : ∀ ds rest : List Char, (∀ c ∈ ds, c.isDigit = true) → ds ≠ '+' :: rest := by
    intro ds rest hds heq
    exact absurd (hds '+' (heq ▸ List.mem_cons_self ..)) (by decide)
  unfold readNumber?
  split
  · rename_i rest hvalue
    refine ⟨rest, rfl, fun ds hds => ?_⟩
    rw [hvalue, List.cons.injEq]
    constructor
    · intro h
      rcases h with h | ⟨-, h⟩
      · exact absurd h.symm (hplus ds rest hds)
      · exact h.symm
    · exact fun h => .inr ⟨rfl, h.symm⟩
  · rename_i hvalue
    refine ⟨value.toList, rfl, fun ds _ => ?_⟩
    constructor
    · intro h
      rcases h with h | h
      · exact h.symm
      · exact absurd h (hvalue ds)
    · exact fun h => .inl h.symm

/-- Reading finds a number just where one is written. -/
theorem readNumber?_eq_some_iff {value : String} {n : Nat} :
    readNumber? value = some n ↔ Writes value n := by
  obtain ⟨digits, hread, hdigits⟩ := exists_digits value
  rw [hread]
  by_cases hempty : digits = []
  · rw [if_pos (by simp [hempty])]
    refine iff_of_false nofun fun h => ?_
    obtain ⟨ds, hne, hds, hvalue, -⟩ := h
    exact hne (((hdigits ds hds).mp hvalue).trans hempty)
  · rw [if_neg (by simpa using hempty), Option.filter_eq_some_iff, readDigits_eq_some_iff,
      Nat.zero_mul, Nat.zero_add]
    simp only [Bool.and_eq_true, decide_eq_true_eq]
    constructor
    · intro h
      obtain ⟨⟨hds, hn⟩, hpos, hsize⟩ := h
      exact ⟨digits, hempty, hds, (hdigits digits hds).mpr rfl, hn, hpos, hsize⟩
    · intro h
      obtain ⟨ds, -, hds, hvalue, hn, hpos, hsize⟩ := h
      have heq : ds = digits := (hdigits ds hds).mp hvalue
      rw [heq] at hds hn
      exact ⟨⟨hds, hn⟩, hpos, hsize⟩

theorem Writes.unique {value : String} {n m : Nat} (hn : Writes value n) (hm : Writes value m) :
    n = m :=
  Option.some.inj ((readNumber?_eq_some_iff.mpr hn).symm.trans (readNumber?_eq_some_iff.mpr hm))

end CuedProse.CommandLine
