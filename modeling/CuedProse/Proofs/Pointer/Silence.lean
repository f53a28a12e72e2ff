import CuedProse.Line.Anchor
import CuedProse.Proofs.Pointer.Visits

/-!
# When a tooltip changes silently

A reader who sees two different tooltips expects that the pointer left the first marker in between,
and is told so. A tooltip remembers the number of a marker, though, and not the marker: on a screen
that is drawn anew the same number may belong to another one.

* `leave_mem_told_iff`: a call reports that the pointer left if it does not find the active marker.
* `exists_leave_iff`: between two calls that is reported unless all of them find the same number.
* `leave_between_iff`: so tooltips change silently only if a number passes to another marker, and
  never while markers are only added.
-/
namespace CuedProse.Tooltip

theorem visit_of_hover_mem {calls : Nat → Call} (hcalls : ∀ n, (calls n).OnRegistered) {t : Tooltip}
    {n : Nat} {cues : List Cue} {c : Cell} (h : .hover cues c ∈ told t calls n) :
    ∃ v, (calls n).visit? = some v ∧ v.group.cues = cues ∧ v.cell = c := by
  rw [told_eq hcalls, List.mem_append] at h
  rcases h with h | h
  · split at h <;> simp at h
  · simpa [Visit.event] using h

section
variable {calls : Nat → Call} (hcalls : ∀ n, (calls n).OnRegistered) (t : Tooltip)

include hcalls

theorem leave_mem_told_iff (n : Nat) : .leave ∈ told t calls n ↔
    (trace t calls n).active ≠ none ∧ (trace t calls n).active ≠ (calls n).hit := by
  rw [told_eq hcalls]
  by_cases hchange : (trace t calls n).active ≠ none ∧ (trace t calls n).active ≠ (calls n).hit
  · simp [hchange]
  · simp [hchange, Visit.event]

theorem leave_mem_told_succ_iff (n : Nat) : .leave ∈ told t calls (n + 1) ↔
    (calls n).hit ≠ none ∧ (calls (n + 1)).hit ≠ (calls n).hit := by
  rw [leave_mem_told_iff hcalls, trace_active hcalls, ne_comm (a := (calls (n + 1)).hit)]

/-- After a call that finds a marker the pointer is reported to leave once a call does not find the
same number. -/
theorem exists_leave_iff {i j : Nat} (hij : i ≤ j) (hi : (calls i).hit ≠ none) :
    (∃ k, i < k ∧ k ≤ j ∧ .leave ∈ told t calls k) ↔
      ∃ k, i < k ∧ k ≤ j ∧ (calls k).hit ≠ (calls i).hit := by
  induction hij with
  | refl => constructor <;> rintro ⟨k, hik, hki, -⟩ <;> omega
  | @step j hij ih =>
    by_cases hchanged : ∃ k, i < k ∧ k ≤ j ∧ (calls k).hit ≠ (calls i).hit
    · obtain ⟨k, hik, hkj, hleave⟩ := ih.mpr hchanged
      obtain ⟨l, hil, hlj, hother⟩ := hchanged
      exact iff_of_true ⟨k, hik, by omega, hleave⟩ ⟨l, hil, by omega, hother⟩
    · -- up to `j` every call finds the number that call `i` found
      have hj : (calls j).hit = (calls i).hit := by
        rcases Nat.eq_or_lt_of_le hij with heq | hlt
        · rw [heq]
        · exact Decidable.not_not.mp fun hne => hchanged ⟨j, hlt, Nat.le_refl j, hne⟩
      have hlast : .leave ∈ told t calls (j + 1) ↔ (calls (j + 1)).hit ≠ (calls i).hit := by
        rw [leave_mem_told_succ_iff hcalls, hj]
        exact and_iff_right hi
      constructor
      · rintro ⟨k, hik, hkj, hleave⟩
        rcases Nat.eq_or_lt_of_le hkj with rfl | hlt
        · exact ⟨j + 1, hik, hkj, hlast.mp hleave⟩
        · exact absurd (ih.mp ⟨k, hik, by omega, hleave⟩) hchanged
      · rintro ⟨k, hik, hkj, hother⟩
        rcases Nat.eq_or_lt_of_le hkj with rfl | hlt
        · exact ⟨j + 1, hik, hkj, hlast.mpr hother⟩
        · exact absurd ⟨k, hik, by omega, hother⟩ hchanged

end

/-- A marker keeps its number and its group when others are registered behind it. -/
theorem visits_same_group {m m' : MarkerMap} {ss more : List Spot} (hm : m.Registers ss)
    (hm' : m'.Registers (ss ++ more)) {p q : Cell} {v w : Visit}
    (hv : (Call.move m p).visit? = some v) (hw : (Call.move m' q).visit? = some w)
    (hmarker : v.marker = w.marker) : v.group = w.group := by
  obtain ⟨-, s, hs, hvs⟩ := (Call.visit?_eq_some_iff hm p v).mp hv
  obtain ⟨-, s', hs', hws⟩ := (Call.visit?_eq_some_iff hm' q w).mp hw
  have hkept : (ss ++ more)[v.marker]? = some s := by
    rw [List.getElem?_append_left (List.getElem?_eq_some_iff.mp hs.1).1, hs.1]
  rw [hmarker, hs'.1, Option.some.injEq] at hkept
  rw [hvs, hws, hkept]

/-- **When a tooltip changes silently.** Between two reports of markers it is reported that the
pointer left, unless every call after the first up to the second finds the number that the first
found. So cues never change silently while markers are only added to the map: then a number stays
with its marker. On a map that was made anew the number may belong to another marker, and the cues
change without a word. -/
theorem leave_between_iff {calls : Nat → Call} (hcalls : ∀ n, (calls n).OnRegistered) {i j : Nat}
    (hij : i < j) {cues cues' : List Cue} {p q : Cell} (hi : .hover cues p ∈ told {} calls i)
    (hj : .hover cues' q ∈ told {} calls j) :
    ((∃ k, i < k ∧ k ≤ j ∧ .leave ∈ told {} calls k) ↔
        ∃ k, i < k ∧ k ≤ j ∧ (calls k).hit ≠ (calls i).hit) ∧
      (∀ m m' ss more, calls i = .move m p → calls j = .move m' q → m.Registers ss →
        m'.Registers (ss ++ more) → cues ≠ cues' →
          ∃ k, i < k ∧ k ≤ j ∧ .leave ∈ told {} calls k) := by
  obtain ⟨v, hv, rfl, -⟩ := visit_of_hover_mem hcalls hi
  obtain ⟨w, hw, rfl, -⟩ := visit_of_hover_mem hcalls hj
  have hfound : (calls i).hit = some v.marker := by rw [Call.hit_eq (hcalls i), hv]; rfl
  have hfound' : (calls j).hit = some w.marker := by rw [Call.hit_eq (hcalls j), hw]; rfl
  have hiff := exists_leave_iff hcalls {} (Nat.le_of_lt hij) (by rw [hfound]; exact nofun)
  refine ⟨hiff, fun m m' ss more hm hm' hss hss' hcues => ?_⟩
  refine hiff.mpr ⟨j, hij, Nat.le_refl j, fun hsame => hcues ?_⟩
  rw [hfound, hfound', Option.some.injEq] at hsame
  rw [hm] at hv
  rw [hm'] at hw
  rw [visits_same_group hss hss' hv hw hsame.symm]

/-- The map is cleared and the second line registered alone: its marker is number 0 as the marker of
the first line was, and the pointer goes from one to the other without a word. -/
theorem silent_after_clear :
    let g : Group := ⟨⟨.vfx, ['x'], {}, 0, 11, "[cue:vfx|x]".toList⟩, []⟩
    let h : Group := ⟨⟨.sound, ['y'], {}, 13, 26, "[cue:sound|y]".toList⟩, []⟩
    let first : RenderedLine := ⟨0, [.marker ['a'] g]⟩
    let second : RenderedLine := ⟨1, [.marker ['b'] h]⟩
    let both : MarkerMap := .ofLines false [first, second]
    let calls : Nat → Call := fun i =>
      [.move both ⟨0, 0⟩].getD i (.move (both.clear.register false second) ⟨1, 0⟩)
    (Line.renderAll none [⟨0, 0, "[cue:vfx|x]a".toList, false⟩,
        ⟨1, 13, "[cue:sound|y]b".toList, false⟩]).1 = [first, second] ∧
      (∀ n, (calls n).OnRegistered) ∧ .hover g.cues ⟨0, 0⟩ ∈ told {} calls 0 ∧
      .hover h.cues ⟨1, 0⟩ ∈ told {} calls 1 ∧ g.cues ≠ h.cues ∧
      ¬ ∃ k, 0 < k ∧ k ≤ 1 ∧ .leave ∈ told {} calls k := by
  intro g h first second both calls
  have hboth : both.Registers _ := .ofLines false [first, second]
  have hcalls : ∀ n, (calls n).OnRegistered := by
    rintro (_ | n)
    · exact ⟨_, hboth⟩
    · exact ⟨_, hboth.clear.register false second⟩
  have hg : TooltipEvent.hover g.cues ⟨0, 0⟩ ∈ told {} calls 0 := by decide +kernel
  have hh : TooltipEvent.hover h.cues ⟨1, 0⟩ ∈ told {} calls 1 := by decide +kernel
  obtain ⟨hiff, -⟩ := leave_between_iff hcalls Nat.zero_lt_one hg hh
  refine ⟨by decide +kernel, hcalls, hg, hh, by decide, fun hleave => ?_⟩
  obtain ⟨k, hk, hk1, hother⟩ := hiff.mp hleave
  have hone : k = 1 := by omega
  subst hone
  revert hother
  decide +kernel

end CuedProse.Tooltip
