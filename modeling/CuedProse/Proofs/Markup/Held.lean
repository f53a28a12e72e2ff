import CuedProse.Proofs.Markup.Hidden

/-!
# What a scanner holds and what is hidden

Two rules say what the end of a cut line may still become. The scanner holds a candidate, which any
opening bracket ends; `hideUnfinished` takes away everything behind the last opening mark until a
closing bracket comes, whatever opens in between.

* `settled`: what a scanner no longer holds open.
* `GivenUp`: an opening mark that the scanner has given up although no bracket closes behind it.
* `Unfinished.held_or_givenUp`: unfinished markup is a candidate, or begins with such a mark.
* `hideUnfinished_settled`: what is hidden is what the scanner holds, save behind such a mark.
-/
namespace CuedProse.Markup

/-- The part of `t` that a scanner no longer holds open when it has read `t`. -/
def settled (t : Text) : Text :=
  match (({} : Scanner).after t).candidate with
  | some k => t.take k.start
  | none => t

/-- Behind an opening mark stands `w`, in which no bracket closes and one opens, but no other mark.
The opening bracket makes the scanner give the mark up. -/
structure GivenUp (w : Text) : Prop where
  unclosed : ']' ∉ w
  reopened : '[' ∈ w
  last : ¬ openingMark <:+: w

/-! ## What the scanner holds -/

theorem settled_append {p : Progress} (h : p.Open) (a : Text) : settled (a ++ p.written) = a := by
  have hread := Scanner.read_after (a ++ p.written)
  have hheld := (hread.candidate a.length p).mpr ⟨h, a, rfl, rfl⟩
  rw [settled, hheld]
  exact List.take_left

theorem settled_cases (t : Text) :
    settled t = t ∨ ∃ p : Progress, p.Open ∧ t = settled t ++ p.written := by
  cases hk : (({} : Scanner).after t).candidate with
  | none => exact .inl (by rw [settled, hk])
  | some k =>
    obtain ⟨hopen, before, ht, -⟩ := ((Scanner.read_after t).candidate k.start k.progress).mp hk
    refine .inr ⟨k.progress, hopen, ?_⟩
    rw [ht, settled_append hopen]

theorem settled_prefix_self (t : Text) : settled t <+: t := by
  rcases settled_cases t with hall | ⟨p, -, hsplit⟩
  · rw [hall]
  · exact ⟨p.written, hsplit.symm⟩

/-! ## Opening marks behind an opening mark -/

/-- Opening marks do not overlap, so another one is in what follows the first. -/
theorem mark_last_iff (t : Text) :
    (∀ i, 0 < i → ¬ openingMark <+: (openingMark ++ t).drop i) ↔ ¬ openingMark <:+: t := by
  constructor
  · rintro h ⟨before, rest, rfl⟩
    have hpos : 0 < openingMark.length + before.length := Nat.add_pos_left (by decide) _
    refine h _ hpos ⟨rest, ?_⟩
    rw [← List.drop_drop, List.drop_left, List.append_assoc before, List.drop_left]
  · intro h i hi hmark
    by_cases hinside : i < openingMark.length
    · -- inside the mark no bracket opens
      rw [show openingMark.length = 5 from rfl] at hinside
      obtain rfl | rfl | rfl | rfl : i = 1 ∨ i = 2 ∨ i = 3 ∨ i = 4 := by omega
      all_goals simp [openingMark] at hmark
    · rw [List.drop_append, List.drop_eq_nil_of_le (by omega), List.nil_append] at hmark
      exact h (hmark.isInfix.trans (List.drop_suffix _ t).isInfix)

/-- Unfinished markup on one line is a candidate, or begins with a mark that was given up. -/
theorem Unfinished.held_or_givenUp {w : Text} (h : Unfinished w) (hline : '\n' ∉ w) :
    (∃ p : Progress, p.Open ∧ p.written = w) ∨ ∃ u, w = openingMark ++ u ∧ GivenUp u := by
  cases h with
  | @markStart n h1 h2 => exact .inl ⟨.opening n, ⟨h1, h2⟩, rfl⟩
  | @body u hclosed hlast =>
    by_cases hopen : '[' ∈ u
    · exact .inr ⟨u, rfl, hclosed, hopen, (mark_last_iff u).mp hlast⟩
    · refine .inl ⟨.body u.reverse, fun c hc => ?_, by simp [Progress.written]⟩
      rw [List.mem_reverse] at hc
      have hfeed : '\n' ∉ u := fun hmem => hline (List.mem_append_right _ hmem)
      exact ⟨fun heq => hopen (heq ▸ hc), fun heq => hclosed (heq ▸ hc), fun heq => hfeed (heq ▸ hc)⟩

/-! ## The two rules -/

theorem hideUnfinished_of_givenUp {w : Text} (h : GivenUp w) (a : Text) :
    hideUnfinished (a ++ openingMark ++ w) = a := by
  rw [List.append_assoc]
  exact hideUnfinished_append_mark a h.unclosed ((mark_last_iff w).mpr h.last)

theorem hideUnfinished_prefix_settled (t : Text) : hideUnfinished t <+: settled t := by
  have hhidden := hideUnfinished_prefix_self t
  rcases settled_cases t with hall | ⟨p, hopen, hsplit⟩
  · rwa [hall]
  · refine List.prefix_of_prefix_length_le hhidden (settled_prefix_self t) ?_
    have hle := hideUnfinished_length_le (settled t) hopen.unfinished
    rwa [← hsplit] at hle

theorem settled_ne_of_givenUp {w : Text} (h : GivenUp w) (a : Text) :
    settled (a ++ openingMark ++ w) ≠ a := by
  intro heq
  rcases settled_cases (a ++ openingMark ++ w) with hall | ⟨p, hopen, hsplit⟩
  · have hlength := congrArg List.length (hall.symm.trans heq)
    simp only [List.length_append, show openingMark.length = 5 from rfl] at hlength
    omega
  · -- a candidate has no bracket but its first character
    obtain ⟨u, hu, hbracket⟩ := Progress.written_eq_cons hopen
    rw [heq, hu, List.append_assoc, List.append_cancel_left_eq, openingMark, List.cons_append,
      List.cons.injEq] at hsplit
    exact hbracket (hsplit.2 ▸ List.mem_append_right _ h.reopened)

/-- No mark was given up, so what is hidden is what the scanner holds. -/
theorem hideUnfinished_eq_settled {t : Text} (hline : '\n' ∉ t)
    (h : ∀ a w, t = a ++ openingMark ++ w → ¬ GivenUp w) : hideUnfinished t = settled t := by
  rcases hideUnfinished_cases t with hall | ⟨w, hw, hsplit⟩
  · refine (hideUnfinished_prefix_settled t).eq_of_length_le ?_
    rw [hall]
    exact (settled_prefix_self t).length_le
  · have hrest : '\n' ∉ w := fun hmem => hline (hsplit ▸ List.mem_append_right _ hmem)
    rcases hw.held_or_givenUp hrest with ⟨p, hopen, rfl⟩ | ⟨u, rfl, hgiven⟩
    · conv_rhs => rw [hsplit, settled_append hopen]
    · rw [← List.append_assoc] at hsplit
      exact absurd hgiven (h _ u hsplit)

/-- **Hidden is what the scanner holds, save behind a mark that it gave up.** On one line, an opening
mark behind which no bracket closes stays hidden, with all that follows it, also if another bracket
has opened and the scanner has given the mark up. In every other case what is hidden is exactly the
candidate that the scanner holds. Nothing that the scanner holds is ever shown. -/
theorem hideUnfinished_settled (t : Text) (hline : '\n' ∉ t) :
    (∀ a w, t = a ++ openingMark ++ w → GivenUp w → hideUnfinished t = a) ∧
      (hideUnfinished t = settled t ↔ ∀ a w, t = a ++ openingMark ++ w → ¬ GivenUp w) ∧
      hideUnfinished t <+: settled t := by
  have hgiven : ∀ a w, t = a ++ openingMark ++ w → GivenUp w → hideUnfinished t = a := by
    rintro a w rfl hw
    exact hideUnfinished_of_givenUp hw a
  refine ⟨hgiven, ⟨fun heq a w ht hw => ?_, hideUnfinished_eq_settled hline⟩,
    hideUnfinished_prefix_settled t⟩
  have hsettled : settled t = a := heq.symm.trans (hgiven a w ht hw)
  rw [ht] at hsettled
  exact settled_ne_of_givenUp hw a hsettled

/-- The first mark was given up, and the scanner holds the beginning of another one. -/
theorem hideUnfinished_settled_of_second_opening :
    let t := "a]b[cue:vfx|x[cu".toList
    '\n' ∉ t ∧ hideUnfinished t = "a]b".toList ∧ settled t = "a]b[cue:vfx|x".toList ∧
      hideUnfinished t <+: settled t := by
  intro t
  have hline : '\n' ∉ t := by decide
  have hw : GivenUp "vfx|x[cu".toList := ⟨by decide, by decide, by decide⟩
  obtain ⟨hgiven, -, hprefix⟩ := hideUnfinished_settled t hline
  exact ⟨hline, hgiven "a]b".toList _ rfl hw, by decide, hprefix⟩

/-- The scanner holds nothing at the end of this line, as the second bracket ended its candidate, and
yet all of the line is hidden. -/
theorem abandoned_mark_hidden :
    let t := "[cue:x[y".toList
    '\n' ∉ t ∧ (({} : Scanner).after t).candidate = none ∧ hideUnfinished t ≠ t := by
  decide

end CuedProse.Markup
