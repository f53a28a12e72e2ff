import CuedProse.Markup.Unfinished

/-!
# What a scanner remembers

Of all that it has read a scanner keeps the one stretch at the end that may still become a cue. So
its state can be read off the text: `Scanner.Read s u` says that `s` holds the candidate that the
end of `u` spells, and no other. Nothing else of the past can matter later on.

* `read_after`: after any text the scanner is in the state that the text spells.
* `mem_cues_iff`: a cue is reported exactly where the text holds an opening mark, a body without
  brackets and line feeds, and a closing bracket, and the body's fields make a cue.
* `cues_ordered`: the cues come in order and do not overlap.
* `cues_append_lineFeed`, `cues_take`: lines are read independently, and the cues of a first part
  are those that end in it.
-/
namespace CuedProse.Markup

/-! ## A stretch that may become a cue -/

namespace Progress

def written : Progress → Text
  | .opening matched => openingMark.take matched
  | .body read => openingMark ++ read.reverse

/-- What a candidate can look like: a proper beginning of the opening mark, or all of it and a body
that nothing has ended. -/
def Open : Progress → Prop
  | .opening matched => 1 ≤ matched ∧ matched < openingMark.length
  | .body read => ∀ c ∈ read, c ≠ '[' ∧ c ≠ ']' ∧ c ≠ '\n'

/-- The progress after one more character, if the candidate goes on with it. -/
def next? (p : Progress) (c : Char) : Option Progress :=
  match p with
  | .opening matched =>
    if openingMark[matched]? = some c then some (Scanner.advanceMark (matched + 1)) else none
  | .body read => if c = '[' ∨ c = ']' ∨ c = '\n' then none else some (.body (c :: read))

theorem written_eq_cons {p : Progress} (h : p.Open) : ∃ t, p.written = '[' :: t ∧ '[' ∉ t := by
  cases p with
  | opening m =>
    obtain ⟨h1, h2⟩ := h
    obtain ⟨n, rfl⟩ : ∃ n, m = n + 1 := ⟨m - 1, by omega⟩
    refine ⟨['c', 'u', 'e', ':'].take n, rfl, fun hm => ?_⟩
    have := List.mem_of_mem_take hm
    simp at this
  | body read =>
    refine ⟨['c', 'u', 'e', ':'] ++ read.reverse, rfl, fun hm => ?_⟩
    simp only [List.mem_append, List.mem_reverse] at hm
    rcases hm with hm | hm
    · simp at hm
    · exact (h _ hm).1 rfl

/-- A text ends in at most one candidate. -/
theorem written_unique {p q : Progress} (hp : p.Open) (hq : q.Open) {a b : Text}
    (h : a ++ p.written = b ++ q.written) : a = b ∧ p.written = q.written := by
  obtain ⟨s, hs, hs'⟩ := written_eq_cons hp
  obtain ⟨t, ht, ht'⟩ := written_eq_cons hq
  rw [hs, ht] at h ⊢
  rcases List.append_eq_append_iff.mp h with ⟨x, rfl, hx⟩ | ⟨x, rfl, hx⟩
  · cases x with
    | nil => exact ⟨by simp, hx⟩
    | cons y x =>
      simp only [List.cons_append, List.cons.injEq] at hx
      exact absurd (by simp [hx.2]) hs'
  · cases x with
    | nil => exact ⟨by simp, hx.symm⟩
    | cons y x =>
      simp only [List.cons_append, List.cons.injEq] at hx
      exact absurd (by simp [hx.2]) ht'

theorem written_length {p : Progress} (h : p.Open) :
    p.written.length = match p with
      | .opening m => m
      | .body read => openingMark.length + read.length := by
  cases p with
  | opening m => simp only [written, List.length_take]; have := h.2; omega
  | body read => simp [written]

theorem written_inj {p q : Progress} (hp : p.Open) (hq : q.Open) (h : p.written = q.written) :
    p = q := by
  have hl := congrArg List.length h
  rw [written_length hp, written_length hq] at hl
  cases p <;> cases q <;> simp only at hl
  · rw [hl]
  · have := hp.2; omega
  · have := hq.2; omega
  · simp only [written, List.append_cancel_left_eq, List.reverse_inj] at h
    rw [h]

/-- A candidate goes on exactly with the characters that keep it one. -/
theorem next?_eq_some {p q : Progress} {c : Char} (hp : p.Open) (h : p.next? c = some q) :
    q.Open ∧ q.written = p.written ++ [c] := by
  cases p with
  | opening m =>
    obtain ⟨h1, h2⟩ := hp
    simp only [next?] at h
    split at h
    · rename_i hc
      simp only [Option.some.injEq] at h
      subst h
      rw [show openingMark.length = 5 from rfl] at h2
      obtain rfl | rfl | rfl | rfl : m = 1 ∨ m = 2 ∨ m = 3 ∨ m = 4 := by omega
      all_goals
        simp only [openingMark, List.getElem?_cons_succ, List.getElem?_cons_zero,
          Option.some.injEq] at hc
        subst hc
        simp [Scanner.advanceMark, openingMark, Open, written]
    · cases h
  | body read =>
    simp only [next?] at h
    split at h
    · cases h
    · rename_i hc
      simp only [Option.some.injEq] at h
      subst h
      refine ⟨?_, by simp [written]⟩
      intro x hx
      simp only [List.mem_cons] at hx
      rcases hx with rfl | hx
      · simpa only [not_or] using hc
      · exact hp x hx

theorem next?_bracket {p : Progress} (h : p.Open) : p.next? '[' = none := by
  rw [Option.eq_none_iff_forall_ne_some]
  intro q hq
  obtain ⟨ho, hw⟩ := next?_eq_some h hq
  obtain ⟨a, ha, -⟩ := written_eq_cons h
  obtain ⟨b, hb, hnot⟩ := written_eq_cons ho
  rw [ha, hb, List.cons_append, List.cons.injEq] at hw
  exact hnot (by simp [hw.2])

/-- A candidate of two characters or more was one before its last character. -/
theorem exists_prev {q : Progress} {w : Text} {c : Char} (hq : q.Open) (hw : w ≠ [])
    (h : q.written = w ++ [c]) : ∃ p : Progress, p.Open ∧ p.written = w ∧ p.next? c = some q := by
  cases q with
  | opening m =>
    obtain ⟨h1, h2⟩ := hq
    simp only [written] at h
    rw [show openingMark.length = 5 from rfl] at h2
    obtain rfl | rfl | rfl | rfl : m = 1 ∨ m = 2 ∨ m = 3 ∨ m = 4 := by omega
    · exact absurd (List.append_inj_left' (show [] ++ ['['] = w ++ [c] from h) rfl).symm hw
    · obtain ⟨rfl, hc⟩ := List.append_inj' (show openingMark.take 1 ++ ['c'] = w ++ [c] from h) rfl
      exact ⟨.opening 1, by simp [Open, openingMark], rfl, by cases hc; rfl⟩
    · obtain ⟨rfl, hc⟩ := List.append_inj' (show openingMark.take 2 ++ ['u'] = w ++ [c] from h) rfl
      exact ⟨.opening 2, by simp [Open, openingMark], rfl, by cases hc; rfl⟩
    · obtain ⟨rfl, hc⟩ := List.append_inj' (show openingMark.take 3 ++ ['e'] = w ++ [c] from h) rfl
      exact ⟨.opening 3, by simp [Open, openingMark], rfl, by cases hc; rfl⟩
  | body read =>
    cases read with
    | nil =>
      obtain ⟨rfl, hc⟩ := List.append_inj' (show openingMark.take 4 ++ [':'] = w ++ [c] from h) rfl
      exact ⟨.opening 4, by simp [Open, openingMark], rfl, by cases hc; rfl⟩
    | cons d read =>
      simp only [written, List.reverse_cons, ← List.append_assoc] at h
      obtain ⟨rfl, hc⟩ := List.append_inj' h rfl
      simp only [List.cons.injEq, and_true] at hc
      subst hc
      refine ⟨.body read, fun x hx => hq x (List.mem_cons_of_mem _ hx), rfl, ?_⟩
      have := hq d (List.mem_cons_self ..)
      simp [next?, this]

end Progress

/-! ## The state of a scanner -/

namespace Scanner

@[simp] theorem step_offset (s : Scanner) (c : Char) : (s.step c).1.offset = s.offset + 1 := by
  unfold step restart keep pass
  split
  · split <;> rfl
  · split
    · rfl
    · split <;> rfl
  · split
    · split <;> rfl
    · split <;> rfl

/-- One character either takes the candidate on or ends it; then only an opening bracket can begin
another one. -/
theorem step_candidate (s : Scanner) (c : Char) :
    (s.step c).1.candidate =
      match s.candidate.bind fun k => (k.progress.next? c).map (Candidate.mk k.start) with
      | some k => some k
      | none => if c = '[' then some ⟨s.offset, .opening 1⟩ else none := by
  have hr : (s.restart c).candidate = if c = '[' then some ⟨s.offset, .opening 1⟩ else none := by
    unfold restart keep pass; split <;> rfl
  rcases hk : s.candidate with _ | ⟨start, p⟩
  · simp [step, hk, hr]
  · cases p with
    | opening m =>
      simp only [step, hk, Option.bind_some, Progress.next?]
      split
      · rfl
      · simpa using hr
    | body read =>
      simp only [step, hk, Option.bind_some, Progress.next?]
      by_cases h1 : c = '['
      · simp [h1, restart, keep]
      · by_cases h2 : c = '\n'
        · subst h2; simp [restart, pass]
        · by_cases h3 : c = ']'
          · subst h3; simp [pass]
          · simp [h1, h2, h3, keep]

theorem candidate_step {s : Scanner} {c : Char} (hc : c ≠ '[') {k : Candidate}
    (hk : (s.step c).1.candidate = some k) : ∃ j, s.candidate = some j ∧ j.start = k.start := by
  rw [step_candidate, if_neg hc] at hk
  split at hk
  · rename_i next hnext
    obtain ⟨j, hj, hmap⟩ := Option.bind_eq_some_iff.mp hnext
    obtain ⟨p, -, hp⟩ := Option.map_eq_some_iff.mp hmap
    exact ⟨j, hj, by rw [← Option.some.inj hk, ← hp]⟩
  · cases hk

/-- The cue that a closing bracket would complete. -/
def closing? (s : Scanner) : Option Cue :=
  match s.candidate with
  | some ⟨start, .body read⟩ => cueOfBody? start read.reverse
  | _ => none

theorem step_cue (s : Scanner) (c : Char) :
    (s.step c).2 = if c = ']' then s.closing? else none := by
  rcases hk : s.candidate with _ | ⟨start, p⟩
  · simp [step, closing?, hk]
  · cases p with
    | opening m => simp only [step, closing?, hk]; split <;> simp
    | body read =>
      simp only [step, closing?, hk]
      by_cases h1 : c = '[' ∨ c = '\n'
      · rw [if_pos h1]
        rcases h1 with rfl | rfl <;> simp
      · rw [if_neg h1]
        split <;> rfl

/-- The scanner is in the state that `u`, read from its beginning, leads to: it holds the candidate
that `u` ends in, and holds none if `u` ends in none. -/
structure Read (s : Scanner) (u : Text) : Prop where
  offset : s.offset = u.length
  candidate : ∀ start p, s.candidate = some ⟨start, p⟩ ↔
    p.Open ∧ ∃ before, u = before ++ p.written ∧ before.length = start

theorem read_nil : Read {} [] := by
  refine ⟨rfl, fun start p => ⟨fun h => by simp at h, ?_⟩⟩
  intro hin
  obtain ⟨hp, before, h, -⟩ := hin
  obtain ⟨t, ht, -⟩ := Progress.written_eq_cons hp
  simp [ht] at h

/-- A candidate at the end of `u ++ [c]` begins with `c` or goes on from one at the end of `u`. -/
theorem Read.candidate_snoc {s : Scanner} {u : Text} (h : s.Read u) {c : Char} {p : Progress}
    {before : Text} (hp : p.Open) (hu : u ++ [c] = before ++ p.written) :
    (c = '[' ∧ p = .opening 1 ∧ before = u) ∨
      ∃ q, s.candidate = some ⟨before.length, q⟩ ∧ q.next? c = some p := by
  obtain ⟨t, ht, -⟩ := Progress.written_eq_cons hp
  obtain ⟨w, d, hw⟩ : ∃ w d, p.written = w ++ [d] :=
    ⟨_, _, (List.dropLast_concat_getLast (by simp [ht])).symm⟩
  rw [hw, ← List.append_assoc] at hu
  obtain ⟨rfl, hd⟩ := List.append_inj' hu rfl
  simp only [List.cons.injEq, and_true] at hd
  subst hd
  by_cases hne : w = []
  · subst hne
    rw [List.nil_append, ht, List.cons.injEq] at hw
    obtain ⟨rfl, rfl⟩ := hw
    refine .inl ⟨rfl, Progress.written_inj hp ?_ ht, by simp⟩
    simp [Progress.Open, openingMark]
  · obtain ⟨q, hq, rfl, hn⟩ := Progress.exists_prev hp hne hw
    exact .inr ⟨q, (h.candidate _ _).mpr ⟨hq, before, rfl, rfl⟩, hn⟩

theorem Read.step {s : Scanner} {u : Text} (h : s.Read u) (c : Char) :
    (s.step c).1.Read (u ++ [c]) := by
  refine ⟨by simp [h.offset], fun start p => ?_⟩
  rw [step_candidate]
  cases hn : s.candidate.bind fun k => (k.progress.next? c).map (Candidate.mk k.start) with
  | some k =>
    obtain ⟨⟨k, q⟩, hk, hm⟩ := Option.bind_eq_some_iff.mp hn
    obtain ⟨q', hq', rfl⟩ := Option.map_eq_some_iff.mp hm
    obtain ⟨hq, b, rfl, rfl⟩ := (h.candidate _ _).mp hk
    obtain ⟨ho, hw⟩ := Progress.next?_eq_some hq hq'
    simp only [Option.some.injEq, Candidate.mk.injEq]
    constructor
    · intro hin
      obtain ⟨rfl, rfl⟩ := hin
      exact ⟨ho, b, by rw [hw, List.append_assoc], rfl⟩
    · intro hin
      obtain ⟨hp, before, hu, rfl⟩ := hin
      rw [List.append_assoc, ← hw] at hu
      obtain ⟨rfl, he⟩ := Progress.written_unique ho hp hu
      exact ⟨rfl, Progress.written_inj ho hp he⟩
  | none =>
    constructor
    · intro hs
      simp only [] at hs
      split at hs
      · rename_i hc
        simp only [Option.some.injEq, Candidate.mk.injEq] at hs
        obtain ⟨rfl, rfl⟩ := hs
        exact ⟨by simp [Progress.Open, openingMark], u, by rw [hc]; rfl, h.offset.symm⟩
      · cases hs
    · intro hin
      obtain ⟨hp, before, hu, rfl⟩ := hin
      rcases h.candidate_snoc hp hu with ⟨rfl, rfl, rfl⟩ | ⟨q, hk, hq⟩
      · simp [h.offset]
      · simp [hk, hq] at hn

@[simp] theorem after_nil (s : Scanner) : s.after [] = s := rfl

@[simp] theorem after_cons (s : Scanner) (c : Char) (t : Text) :
    s.after (c :: t) = (s.step c).1.after t := rfl

theorem Read.after {s : Scanner} {u : Text} (h : s.Read u) (t : Text) :
    (s.after t).Read (u ++ t) := by
  induction t generalizing s u with
  | nil => simpa using h
  | cons c t ih => simpa using ih (h.step c)

/-- After any text a scanner is in the state that the text leads to. -/
theorem read_after (t : Text) : (({} : Scanner).after t).Read t := by
  simpa using read_nil.after t

theorem Read.candidate_bracket {s : Scanner} {u : Text} (h : s.Read u) :
    (s.step '[').1.candidate = some ⟨u.length, .opening 1⟩ := by
  have hended : (s.candidate.bind fun k =>
      (k.progress.next? '[').map (Candidate.mk k.start)) = none := by
    rw [Option.bind_eq_none_iff]
    intro k hk
    rw [Progress.next?_bracket ((h.candidate k.start k.progress).mp hk).1]
    rfl
  rw [step_candidate, hended, ← h.offset]
  rfl

theorem Read.start_lt {s : Scanner} {u : Text} (h : s.Read u) {k : Candidate}
    (hk : s.candidate = some k) : k.start < u.length := by
  obtain ⟨hopen, before, hu, hstart⟩ := (h.candidate k.start k.progress).mp hk
  obtain ⟨w, hw, -⟩ := Progress.written_eq_cons hopen
  rw [hu, ← hstart, List.length_append, hw, List.length_cons]
  omega

/-! ## The cues of a text -/

@[simp] theorem cues_cons (s : Scanner) (c : Char) (t : Text) :
    s.cues (c :: t) = (s.step c).2.toList ++ (s.step c).1.cues t := rfl

theorem cues_append (s : Scanner) (a b : Text) :
    s.cues (a ++ b) = s.cues a ++ (s.after a).cues b := by
  induction a generalizing s with
  | nil => rfl
  | cons c a ih => simp [ih]

/-- A cue is reported at a closing bracket that completes one. -/
theorem mem_cues (s : Scanner) (t : Text) (c : Cue) :
    c ∈ s.cues t ↔ ∃ u v, t = u ++ ']' :: v ∧ (s.after u).closing? = some c := by
  induction t generalizing s with
  | nil => simp [cues]
  | cons d t ih =>
    simp only [cues_cons, List.mem_append, Option.mem_toList, step_cue, ih]
    constructor
    · intro hin
      rcases hin with h | ⟨u, v, rfl, h⟩
      · split at h
        · rename_i hd
          exact ⟨[], t, by simp [hd], h⟩
        · cases h
      · exact ⟨d :: u, v, rfl, h⟩
    · intro hin
      obtain ⟨u, v, hu, h⟩ := hin
      cases u with
      | nil =>
        simp only [List.nil_append, List.cons.injEq] at hu
        exact .inl (by simpa [hu.1] using h)
      | cons e u =>
        simp only [List.cons_append, List.cons.injEq] at hu
        obtain ⟨rfl, rfl⟩ := hu
        exact .inr ⟨u, v, rfl, h⟩

theorem cues_eq_nil {t : Text} (h : ']' ∉ t) (s : Scanner) : s.cues t = [] := by
  rw [List.eq_nil_iff_forall_not_mem]
  intro c hc
  obtain ⟨u, v, rfl, -⟩ := (s.mem_cues t c).mp hc
  exact h (by simp)

/-- What would be completed after `u`, read off `u`. -/
theorem Read.closing?_eq_some {s : Scanner} {u : Text} (h : s.Read u) (c : Cue) :
    s.closing? = some c ↔ ∃ before body, u = before ++ openingMark ++ body ∧
      (∀ x ∈ body, x ≠ '[' ∧ x ≠ ']' ∧ x ≠ '\n') ∧
      cueOfBody? before.length body = some c := by
  constructor
  · intro hc
    unfold closing? at hc
    split at hc
    · rename_i start read hk
      obtain ⟨ho, before, rfl, rfl⟩ := (h.candidate _ _).mp hk
      refine ⟨before, read.reverse, by simp [Progress.written], ?_, hc⟩
      intro x hx
      exact ho x (List.mem_reverse.mp hx)
    · cases hc
  · intro hin
    obtain ⟨before, body, rfl, hb, hc⟩ := hin
    have hk : s.candidate = some ⟨before.length, .body body.reverse⟩ :=
      (h.candidate _ _).mpr ⟨fun x hx => hb x (List.mem_reverse.mp hx), before,
        by simp [Progress.written], rfl⟩
    simp [closing?, hk, hc]

end Scanner

theorem cueOfBody?_place {start : Nat} {body : Text} {c : Cue}
    (h : cueOfBody? start body = some c) :
    c.start = start ∧ c.stop = start + openingMark.length + body.length + 1 ∧
      c.markup = openingMark ++ body ++ [']'] := by
  unfold cueOfBody? at h
  split at h
  · split at h
    · cases h
    · cases h; exact ⟨rfl, rfl, rfl⟩
  · cases h

theorem cueOfBody?_add (start delta : Nat) (body : Text) :
    cueOfBody? (start + delta) body = (cueOfBody? start body).map (Cue.shift delta) := by
  unfold cueOfBody?
  split
  · split
    · rfl
    · simp only [Option.map_some, Cue.shift, Option.some.injEq, Cue.mk.injEq, true_and, and_true]
      omega
  · rfl

/-- A cue is reported exactly where a body without brackets and line feeds stands between an
opening mark and a closing bracket and its fields make a cue. -/
theorem mem_cues_iff (t : Text) (c : Cue) :
    c ∈ cues t ↔ ∃ before body rest, t = before ++ openingMark ++ body ++ ']' :: rest ∧
      (∀ x ∈ body, x ≠ '[' ∧ x ≠ ']' ∧ x ≠ '\n') ∧ cueOfBody? before.length body = some c := by
  unfold cues
  rw [Scanner.mem_cues]
  constructor
  · intro hin
    obtain ⟨u, v, rfl, h⟩ := hin
    obtain ⟨before, body, rfl, hb, hc⟩ := ((Scanner.read_after u).closing?_eq_some c).mp h
    exact ⟨before, body, v, rfl, hb, hc⟩
  · intro hin
    obtain ⟨before, body, rest, rfl, hb, hc⟩ := hin
    refine ⟨before ++ openingMark ++ body, rest, rfl, ?_⟩
    exact ((Scanner.read_after _).closing?_eq_some c).mpr ⟨before, body, rfl, hb, hc⟩

theorem stop_le_length {t : Text} {c : Cue} (h : c ∈ cues t) : c.stop ≤ t.length := by
  obtain ⟨before, body, rest, rfl, -, hc⟩ := (mem_cues_iff t c).mp h
  rw [(cueOfBody?_place hc).2.1]
  simp only [List.length_append, List.length_cons]
  omega

theorem start_lt_stop {t : Text} {c : Cue} (h : c ∈ cues t) : c.start < c.stop := by
  obtain ⟨before, body, rest, rfl, -, hc⟩ := (mem_cues_iff t c).mp h
  obtain ⟨h1, h2, -⟩ := cueOfBody?_place hc
  omega

/-! ## Reading on -/

namespace Scanner

def shift (delta : Nat) (s : Scanner) : Scanner :=
  { offset := s.offset + delta
    candidate := s.candidate.map fun k => ⟨k.start + delta, k.progress⟩ }

theorem step_shift (delta : Nat) (s : Scanner) (c : Char) :
    (s.shift delta).step c = ((s.step c).1.shift delta, (s.step c).2.map (Cue.shift delta)) := by
  have hr : (s.shift delta).restart c = (s.restart c).shift delta := by
    unfold restart keep pass shift
    split <;> simp <;> omega
  rcases s with ⟨offset, _ | ⟨start, p⟩⟩
  · simpa [step, shift] using hr
  · cases p with
    | opening m =>
      simp only [shift, Option.map_some] at hr ⊢
      simp only [step]
      split
      · simp only [keep, Option.map_some, Option.map_none, Prod.mk.injEq, Scanner.mk.injEq,
          and_true]
        omega
      · simp [hr]
    | body read =>
      simp only [shift, Option.map_some] at hr ⊢
      simp only [step]
      split
      · simp [hr]
      · split
        · simp only [pass, cueOfBody?_add, Option.map_none, Prod.mk.injEq, Scanner.mk.injEq,
            and_true]
          omega
        · simp only [keep, Option.map_some, Option.map_none, Prod.mk.injEq, Scanner.mk.injEq,
            and_true]
          omega

theorem cues_shift (delta : Nat) (s : Scanner) (t : Text) :
    (s.shift delta).cues t = (s.cues t).map (Cue.shift delta) := by
  induction t generalizing s with
  | nil => rfl
  | cons c t ih =>
    rw [cues_cons, cues_cons, step_shift, ih, List.map_append]
    cases (s.step c).2 <;> rfl

theorem cues_of_candidate_none {s : Scanner} (h : s.candidate = none) (t : Text) :
    s.cues t = (Markup.cues t).map (Cue.shift s.offset) := by
  have hs : s = ({} : Scanner).shift s.offset := by
    cases s; simp only at h; subst h; simp [shift]
  rw [hs, cues_shift]
  simp [shift, Markup.cues]

theorem candidate_step_of_ends {c : Char} (h : c = ']' ∨ c = '\n') (s : Scanner) :
    (s.step c).1.candidate = none := by
  rw [step_candidate]
  have hn : ∀ k : Candidate, k.progress.next? c = none := by
    intro hin
    obtain ⟨start, p⟩ := hin
    cases p with
    | opening m =>
      have : openingMark[m]? ≠ some c := by
        intro hm
        have := List.mem_of_getElem? hm
        rcases h with rfl | rfl <;> simp [openingMark] at this
      simp [Progress.next?, this]
    | body read => rcases h with rfl | rfl <;> simp [Progress.next?]
  rcases h with rfl | rfl <;> simp [hn]

theorem Read.closing?_stop {s : Scanner} {u : Text} (h : s.Read u) {c : Cue}
    (hc : s.closing? = some c) : c.stop = u.length + 1 := by
  obtain ⟨before, body, rfl, -, hb⟩ := (h.closing?_eq_some c).mp hc
  rw [(cueOfBody?_place hb).2.1]
  simp only [List.length_append]

theorem Read.lt_stop {s : Scanner} {u t : Text} (h : s.Read u) {c : Cue} (hc : c ∈ s.cues t) :
    u.length < c.stop := by
  obtain ⟨a, b, rfl, hk⟩ := (s.mem_cues t c).mp hc
  rw [(h.after a).closing?_stop hk, List.length_append]
  omega

theorem Read.cues_ordered {s : Scanner} {u : Text} (h : s.Read u) (t : Text) :
    (s.cues t).Pairwise fun c d => c.stop ≤ d.start := by
  induction t generalizing s u with
  | nil => exact .nil
  | cons c t ih =>
    have hrest := ih (h.step c)
    rw [cues_cons]
    cases hx : (s.step c).2 with
    | none => simpa using hrest
    | some x =>
      refine List.pairwise_cons.mpr ⟨fun d hd => ?_, hrest⟩
      rw [step_cue] at hx
      split at hx
      · rename_i hc
        -- nothing is open behind the bracket, so what follows is read afresh
        change d ∈ (s.step c).1.cues t at hd
        rw [cues_of_candidate_none (candidate_step_of_ends (.inl hc) s)] at hd
        obtain ⟨d', -, rfl⟩ := List.mem_map.mp hd
        rw [h.closing?_stop hx, ← h.offset]
        simp [Cue.shift]
      · cases hx

end Scanner

theorem cues_ordered (t : Text) : (cues t).Pairwise fun c d => c.stop ≤ d.start :=
  Scanner.read_nil.cues_ordered t

/-- The cues of a first part are those that end in it. -/
theorem cues_of_append (a b : Text) :
    cues a = (cues (a ++ b)).filter fun c => c.stop ≤ a.length := by
  have ha : (cues a).filter (fun c => c.stop ≤ a.length) = cues a :=
    List.filter_eq_self.mpr fun c hc => by simpa using stop_le_length hc
  have hb : ((({} : Scanner).after a).cues b).filter (fun c => c.stop ≤ a.length) = [] := by
    rw [List.filter_eq_nil_iff]
    intro c hc
    have := (Scanner.read_after a).lt_stop hc
    simp only [decide_eq_true_eq]
    omega
  have happ := Scanner.cues_append {} a b
  unfold cues at ha ⊢
  rw [happ, List.filter_append, hb, ha, List.append_nil]

theorem cues_take (t : Text) (k : Nat) :
    cues (t.take k) = (cues t).filter fun c => c.stop ≤ k := by
  have h := cues_of_append (t.take k) (t.drop k)
  rw [List.take_append_drop, List.length_take] at h
  rw [h]
  refine List.filter_congr fun c hc => ?_
  have := stop_le_length hc
  simp only [decide_eq_decide]
  omega

theorem cues_append_lineFeed (a b : Text) :
    cues (a ++ '\n' :: b) = cues a ++ (cues b).map (Cue.shift (a.length + 1)) := by
  have hr := Scanner.read_after a
  have hn := Scanner.candidate_step_of_ends (.inr rfl) (({} : Scanner).after a)
  calc cues (a ++ '\n' :: b)
      = cues a ++ (({} : Scanner).after a).cues ('\n' :: b) := Scanner.cues_append {} a _
    _ = cues a ++ ((({} : Scanner).after a).step '\n').1.cues b := by
      rw [Scanner.cues_cons, Scanner.step_cue]
      simp
    _ = cues a ++ (cues b).map (Cue.shift (a.length + 1)) := by
      rw [Scanner.cues_of_candidate_none hn, Scanner.step_offset, hr.offset]

end CuedProse.Markup
