import CuedProse.Proofs.Reading.Accounting

/-!
# Cues where two texts meet

A scanner that has read one text reads the next one as if it began there, but for the candidate that
is still open. That candidate can give one cue at most: the next opening bracket makes the scanner
forget it, and so does a closing bracket or a line feed.

* `Scanner.step_bracket`: behind an opening bracket nothing of the past is left.
* `Scanner.Read.cues_read_on`: from any state that a text leads to, a scanner finds the cues that a
  fresh one finds, and before them at most the one that was open.
* `cues_append_eq`: so two texts side by side have the cues of both and at most one across the join.
* `cues_local`: this, for the lines of a chapter and for a first part of it too.
-/
namespace CuedProse

namespace Markup

namespace Scanner

variable {s : Scanner} {u : Text}

theorem step_bracket (h : s.Read u) :
    (s.step '[').1 = (({} : Scanner).step '[').1.shift u.length := by
  have hoffset : (s.step '[').1.offset = u.length + 1 := by rw [step_offset, h.offset]
  have hcandidate := h.candidate_bracket
  generalize (s.step '[').1 = next at hoffset hcandidate
  cases next
  simp only at hoffset hcandidate
  rw [hoffset, hcandidate]
  simp [step, restart, keep, shift, Nat.add_comm]

theorem start_of_closing? {c : Cue} (hc : s.closing? = some c) :
    ∃ j, s.candidate = some j ∧ j.start = c.start := by
  unfold closing? at hc
  split at hc
  · rename_i start read hk
    exact ⟨_, hk, (cueOfBody?_place hc).1.symm⟩
  · cases hc

theorem map_shift_cues_cons {c : Char} (hc : c ≠ '[') (t : Text) (delta : Nat) :
    (Markup.cues (c :: t)).map (Cue.shift delta) = (Markup.cues t).map (Cue.shift (1 + delta)) := by
  have hstep : ({} : Scanner).step c = ({ offset := 1 }, none) := by
    simp [step, restart, pass, hc]
  have hrest : ({ offset := 1 } : Scanner).cues t = (Markup.cues t).map (Cue.shift 1) :=
    cues_of_candidate_none rfl t
  rw [Markup.cues, cues_cons, hstep, hrest, Option.toList_none, List.nil_append, List.map_map]
  refine List.map_congr_left fun d _ => ?_
  rw [Function.comp_apply, Cue.shift_shift]

/-- From any state that a text leads to, the scanner finds what a fresh one finds, and before that
at most one cue, which was open already. -/
theorem Read.cues_read_on (h : s.Read u) (t : Text) :
    ∃ x : Option Cue, s.cues t = x.toList ++ (Markup.cues t).map (Cue.shift u.length) ∧
      ∀ c ∈ x, ∃ k, s.candidate = some k ∧ k.start = c.start := by
  induction t generalizing s u with
  | nil => exact ⟨none, rfl, by simp⟩
  | cons c t ih =>
    have hlength : (u ++ [c]).length = 1 + u.length := by
      rw [List.length_append, List.length_singleton, Nat.add_comm]
    by_cases hopen : c = '['
    · -- the candidate is forgotten, and so is every other difference to a fresh scanner
      refine ⟨none, ?_, by simp⟩
      have hfresh : (({} : Scanner).step '[').2 = none := rfl
      rw [hopen, cues_cons, step_cue, if_neg (by decide), step_bracket h, cues_shift, Markup.cues,
        cues_cons, hfresh]
      rfl
    · by_cases hends : c = ']' ∨ c = '\n'
      · -- what is open is completed or dropped, and nothing is open behind it
        have hclosed := candidate_step_of_ends hends s
        refine ⟨(s.step c).2, ?_, fun d hd => ?_⟩
        · rw [cues_cons, cues_of_candidate_none hclosed, (h.step c).offset, hlength,
            map_shift_cues_cons hopen]
        · rw [step_cue] at hd
          split at hd
          · exact start_of_closing? hd
          · cases hd
      · -- the candidate goes on, or nothing is open
        obtain ⟨x, hx, hstart⟩ := ih (h.step c)
        refine ⟨x, ?_, fun d hd => ?_⟩
        · rw [cues_cons, step_cue, if_neg fun hc => hends (.inl hc), hx, hlength,
            map_shift_cues_cons hopen]
          rfl
        · obtain ⟨k, hk, hkd⟩ := hstart d hd
          obtain ⟨j, hj, hjk⟩ := candidate_step hopen hk
          exact ⟨j, hj, hjk.trans hkd⟩

end Scanner

/-! ## Two texts -/

/-- The cues of two texts side by side that begin in the one and end in the other. -/
def straddling (a b : Text) : List Cue :=
  (cues (a ++ b)).filter fun c => c.start < a.length ∧ a.length < c.stop

/-- Two texts side by side have the cues of both, and at most one across the join. -/
theorem cues_append_eq (a b : Text) :
    cues (a ++ b) = cues a ++ straddling a b ++ (cues b).map (Cue.shift a.length) ∧
      (straddling a b).length ≤ 1 := by
  have hread := Scanner.read_after a
  obtain ⟨x, hx, hstart⟩ := hread.cues_read_on b
  have hall : cues (a ++ b) = cues a ++ (x.toList ++ (cues b).map (Cue.shift a.length)) := by
    rw [← hx]
    exact Scanner.cues_append {} a b
  have hacross : ∀ c ∈ x, c.start < a.length ∧ a.length < c.stop := by
    intro c hc
    obtain ⟨k, hk, hkc⟩ := hstart c hc
    refine ⟨hkc ▸ hread.start_lt hk, hread.lt_stop (t := b) ?_⟩
    rw [hx]
    exact List.mem_append_left _ (Option.mem_toList.mpr hc)
  have hfirst : (cues a).filter (fun c => c.start < a.length ∧ a.length < c.stop) = [] := by
    rw [List.filter_eq_nil_iff]
    intro c hc hin
    have := stop_le_length hc
    have := (of_decide_eq_true hin).2
    omega
  have hsecond : ((cues b).map (Cue.shift a.length)).filter
      (fun c => c.start < a.length ∧ a.length < c.stop) = [] := by
    rw [List.filter_eq_nil_iff]
    intro c hc hin
    obtain ⟨d, -, hd⟩ := List.mem_map.mp hc
    have hlt := (of_decide_eq_true hin).1
    rw [← hd] at hlt
    simp only [Cue.shift] at hlt
    omega
  have hstraddling : straddling a b = x.toList := by
    have hkept : x.toList.filter (fun c => c.start < a.length ∧ a.length < c.stop) = x.toList :=
      List.filter_eq_self.mpr fun c hc => decide_eq_true (hacross c (Option.mem_toList.mp hc))
    rw [straddling, hall, List.filter_append, List.filter_append, hfirst, hsecond, hkept]
    simp
  refine ⟨?_, ?_⟩
  · rw [hstraddling, hall, List.append_assoc]
  · rw [hstraddling]
    cases x <;> simp

/-- No cue goes over a line feed. -/
theorem straddling_eq_nil {a b : Text} (h : a.getLast? = some '\n' ∨ b.head? = some '\n') :
    straddling a b = [] := by
  -- either way a line feed stands at the join, and no cue of the two sides of it reaches the join
  obtain ⟨l, r, hjoin, hl, hr⟩ : ∃ l r, a ++ b = l ++ '\n' :: r ∧ l.length ≤ a.length ∧
      a.length ≤ l.length + 1 := by
    rcases h with ha | hb
    · obtain ⟨l, hl⟩ := List.getLast?_eq_some_iff.mp ha
      refine ⟨l, b, by simp [hl], ?_, ?_⟩ <;> simp [hl]
    · obtain ⟨r, hr⟩ := List.head?_eq_some_iff.mp hb
      exact ⟨a, r, by rw [hr], Nat.le_refl _, Nat.le_succ _⟩
  rw [straddling, hjoin, cues_append_lineFeed, List.filter_eq_nil_iff]
  intro c hc hin
  obtain ⟨hstart, hstop⟩ := of_decide_eq_true hin
  rcases List.mem_append.mp hc with hc | hc
  · have := stop_le_length hc
    omega
  · obtain ⟨d, -, hd⟩ := List.mem_map.mp hc
    rw [← hd] at hstart
    simp only [Cue.shift] at hstart
    omega

/-- **Cues are recognised whatever stands around them.** The cues of two texts side by side are
those of the first one, then at most one that begins in it and ends in the second one, and then
those of the second one, moved behind the first; no cue goes over a line feed. So the cues of a
chapter are those of its lines, each moved to where the line starts, and a first part of a text has
those of its cues that end in it. -/
theorem cues_local :
    (∀ a b, cues (a ++ b) = cues a ++ straddling a b ++ (cues b).map (Cue.shift a.length) ∧
      (straddling a b).length ≤ 1 ∧
      (a.getLast? = some '\n' ∨ b.head? = some '\n' → straddling a b = [])) ∧
    (∀ text o, (Chapter.ofText text o).cues =
      (List.range (Chapter.ofText text o).lines.size).flatMap fun i =>
        (cues (Text.lineAt text i)).map (Cue.shift ((Chapter.ofText text o).lines.start i))) ∧
    ∀ text k, cues (text.take k) = (cues text).filter fun c => c.stop ≤ k := by
  refine ⟨fun a b => ?_, fun text o => ?_, cues_take⟩
  · obtain ⟨heq, hone⟩ := cues_append_eq a b
    exact ⟨heq, hone, straddling_eq_nil⟩
  · have hsize : (Chapter.ofText text o).lines.size = (Text.lines text).length :=
      LineTable.size_ofText text
    rw [hsize]
    exact LineTable.cues_eq_flatMap text

/-- A cue that was cut in two is found across the join, behind one that another bracket ended; cut
at a line feed, the same text has no such cue. -/
theorem cues_local_of_cut_cue :
    let a := "[cue:x|y[cue:vfx|".toList
    let b := "a]\n[cue:vfx|b]".toList
    cues (a ++ b) = cues a ++ straddling a b ++ (cues b).map (Cue.shift a.length) ∧
      (straddling a b).map Cue.start = [8] ∧
      ("a]\n".toList.getLast? = some '\n' ∨ "[cue:vfx|b]".toList.head? = some '\n') ∧
      straddling "a]\n".toList "[cue:vfx|b]".toList = [] := by
  intro a b
  exact ⟨(cues_local.1 a b).1, by decide, .inl (by decide),
    (cues_local.1 "a]\n".toList "[cue:vfx|b]".toList).2.2 (.inl (by decide))⟩

end Markup

end CuedProse
