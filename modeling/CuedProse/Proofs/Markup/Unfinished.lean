import CuedProse.Proofs.Markup.Context

/-!
# Hiding unfinished markup

* `hideUnfinished_eq_take`: only an end of the text without a closing bracket is hidden.
* `cues_hideUnfinished`: so no cue is lost, and none appears.
-/
namespace CuedProse.Markup

theorem hideMarkStart_eq_take (t : Text) :
    ∃ k, hideMarkStart t = t.take k ∧ ']' ∉ t.drop k := by
  unfold hideMarkStart
  split
  · rename_i n hn
    refine ⟨t.length - n, rfl, ?_⟩
    have hmem := List.mem_of_find?_eq_some hn
    have hsuffix := List.find?_some hn
    obtain ⟨a, ha⟩ := List.isSuffixOf_iff_suffix.mp hsuffix
    have hlen : (openingMark.take n).length = n := by
      rw [List.length_take]
      simp only [List.mem_cons, List.not_mem_nil, or_false] at hmem
      simp only [openingMark, List.length_cons, List.length_nil]
      omega
    have hdrop : t.drop (t.length - n) = openingMark.take n := by
      rw [← ha, List.length_append, hlen, Nat.add_sub_cancel, List.drop_left]
    rw [hdrop]
    intro hm
    have := List.mem_of_mem_take hm
    simp [openingMark] at this
  · exact ⟨t.length, by simp, by simp⟩

theorem hideUnfinished_eq_take (t : Text) :
    ∃ k, hideUnfinished t = t.take k ∧ ']' ∉ t.drop k := by
  unfold hideUnfinished
  split
  · rename_i k _
    split
    · exact hideMarkStart_eq_take t
    · rename_i hclosed
      refine ⟨k, rfl, fun hm => hclosed ?_⟩
      simpa using hm
  · exact hideMarkStart_eq_take t

/-- A cue ends with a closing bracket, so hiding unfinished markup hides no cue. -/
theorem cues_hideUnfinished (t : Text) : cues (hideUnfinished t) = cues t := by
  obtain ⟨k, hk, hclosed⟩ := hideUnfinished_eq_take t
  have happ := Scanner.cues_append {} (t.take k) (t.drop k)
  rw [List.take_append_drop, Scanner.cues_eq_nil hclosed, List.append_nil] at happ
  rw [hk]
  exact happ.symm

end CuedProse.Markup
