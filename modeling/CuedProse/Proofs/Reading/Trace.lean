import CuedProse.Proofs.Reading.Crossing

/-!
# What a trigger does over time

A trigger keeps an offset and two sets. Over any run of calls they say no more than the calls
themselves do: which cues were passed forward, which backward, and under which policy.

**Traces.** `trace t cues calls n` is the trigger after the first `n` of `calls`, and
`sent t cues calls n` is what call number `n` sends, and `counted t cues calls n` how many it says
these are. Each call brings its own policy.

* `advance_step`: what one call does to a trigger that knows where it is.
* `mem_fired_iff`: the set of fired cues is what was sent.
* `mem_rearmed_iff`: a cue is rearmed if it was passed backward under `Policy.everyCrossing` and not
  forward since.
* `trace_law`: so a call sends the cues it passes forward that were never sent or are rearmed; under
  one policy throughout, these are the first crossing of each cue, or every crossing.
-/
namespace CuedProse

/-! ## Fired offsets in order -/

namespace OffsetSet

theorem insertOrdered_ascending {n : Nat} {l : List Nat} (h : l.Pairwise (· < ·)) :
    (insertOrdered n l).Pairwise (· < ·) := by
  induction l with
  | nil => simp [insertOrdered]
  | cons m l ih =>
    obtain ⟨hfirst, hrest⟩ := List.pairwise_cons.mp h
    unfold insertOrdered
    split
    · rename_i hlt
      refine List.pairwise_cons.mpr ⟨fun k hk => ?_, h⟩
      rcases List.mem_cons.mp hk with heq | hk
      · omega
      · have := hfirst k hk
        omega
    · split
      · exact h
      · refine List.pairwise_cons.mpr ⟨fun k hk => ?_, ih hrest⟩
        rcases mem_insertOrdered.mp hk with heq | hk
        · omega
        · exact hfirst k hk

end OffsetSet

namespace Trigger

theorem fireAll_ascending {t : Trigger} (h : t.fired.offsets.Pairwise (· < ·)) (cues : List Cue) :
    (t.fireAll cues).trigger.fired.offsets.Pairwise (· < ·) := by
  induction cues generalizing t with
  | nil => exact h
  | cons c cues ih =>
    unfold fireAll
    split
    · exact ih (OffsetSet.insertOrdered_ascending h)
    · exact ih h

theorem advance_ascending {t : Trigger} (h : t.fired.offsets.Pairwise (· < ·)) (target : Nat)
    (cues : List Cue) (policy : Policy) :
    (t.advance target cues policy).trigger.fired.offsets.Pairwise (· < ·) := by
  unfold advance
  split
  · exact h
  · split
    · cases policy <;> exact h
    · exact fireAll_ascending (t := { t with previous := some target }) h _

/-! ## One call -/

/-- What a call does to a trigger that was at `previous`. Whether it goes forward or back, it sends
the armed ones of the cues that it passes forward; these are then fired and no longer rearmed, and
the cues that it passes backward are rearmed if its policy says so. -/
theorem advance_step {t : Trigger} {previous : Nat} (h : t.previous = some previous)
    {cues : List Cue} (hc : Ordered cues) (target : Nat) (policy : Policy) :
    (t.advance target cues policy).sent =
        cues.filter (fun c => (previous < c.stop ∧ c.stop ≤ target) ∧ t.isArmed c = true) ∧
      (t.advance target cues policy).trigger.previous = some target ∧
      (∀ m, m ∈ (t.advance target cues policy).trigger.fired.offsets ↔
        m ∈ t.fired.offsets ∨ m ∈ (t.advance target cues policy).sent.map (·.start)) ∧
      ∀ c ∈ cues, c.start ∈ (t.advance target cues policy).trigger.rearmed.offsets ↔
        (target < c.stop ∧ c.stop ≤ previous) ∧ policy = .everyCrossing ∨
          c.start ∈ t.rearmed.offsets ∧ ¬ (previous < c.stop ∧ c.stop ≤ target) := by
  by_cases hlt : target < previous
  · obtain ⟨hsent, hprevious, hfired, hrearmed⟩ := advance_back h hlt hc policy
    refine ⟨?_, hprevious, fun m => ?_, fun c hcm => ?_⟩
    · rw [hsent, eq_comm, List.filter_eq_nil_iff]
      intro c _
      simp only [decide_eq_true_eq]
      omega
    · rw [hfired, hsent]
      simp
    · rw [hrearmed, or_comm]
      refine or_congr ⟨fun hback => ?_, fun hback => ?_⟩ ⟨fun hin => ⟨hin, by omega⟩, And.left⟩
      · obtain ⟨hpolicy, d, hd, hpassed, hstart⟩ := hback
        rw [← hc.eq_of_start_eq hd hcm hstart]
        exact ⟨hpassed, hpolicy⟩
      · exact ⟨hback.2, c, hcm, hback.1, rfl⟩
  · obtain ⟨hsent, hprevious, hfired, hrearmed⟩ := advance_forward h (Nat.le_of_not_lt hlt) hc policy
    refine ⟨hsent, hprevious, hfired, fun c hcm => ?_⟩
    -- a cue is known by its start, and a rearmed one is armed
    have hstart : c.start ∈ (t.advance target cues policy).sent.map (·.start) ↔
        (previous < c.stop ∧ c.stop ≤ target) ∧ t.isArmed c = true := by
      rw [List.mem_map, hsent]
      simp only [List.mem_filter, decide_eq_true_eq]
      constructor
      · intro ⟨d, hd, heq⟩
        rw [← hc.eq_of_start_eq hd.1 hcm heq]
        exact hd.2
      · intro hcrossed
        exact ⟨c, ⟨hcm, hcrossed⟩, rfl⟩
    rw [hrearmed, hstart, isArmed_iff]
    constructor
    · intro ⟨hin, hnot⟩
      exact .inr ⟨hin, fun hcrossed => hnot ⟨hcrossed, .inl hin⟩⟩
    · intro hor
      rcases hor with hback | ⟨hin, hnot⟩
      · omega
      · exact ⟨hin, fun hcrossed => hnot hcrossed.1⟩

/-! ## Runs of calls -/

/-- One call of a trigger: where it goes, and the policy it is made under. -/
structure Call where
  target : Nat
  policy : Policy
  deriving DecidableEq, Repr

/-- The trigger after the first `n` of `calls`. -/
def trace (t : Trigger) (cues : List Cue) (calls : Nat → Call) : Nat → Trigger
  | 0 => t
  | n + 1 => ((trace t cues calls n).advance (calls n).target cues (calls n).policy).trigger

/-- What call number `n` sends, in order. -/
def sent (t : Trigger) (cues : List Cue) (calls : Nat → Call) (n : Nat) : List Cue :=
  ((trace t cues calls n).advance (calls n).target cues (calls n).policy).sent

/-- How many cues call number `n` says it has sent. -/
def counted (t : Trigger) (cues : List Cue) (calls : Nat → Call) (n : Nat) : Nat :=
  ((trace t cues calls n).advance (calls n).target cues (calls n).policy).count

/-- Call number `i` passes the end of `c` going forward. -/
def PassesForward (calls : Nat → Call) (c : Cue) : Nat → Prop
  | 0 => False
  | i + 1 => (calls i).target < c.stop ∧ c.stop ≤ (calls (i + 1)).target

/-- Call number `i` passes the end of `c` going back, and its policy is to fire again. -/
def PassesBack (calls : Nat → Call) (c : Cue) : Nat → Prop
  | 0 => False
  | i + 1 => ((calls (i + 1)).target < c.stop ∧ c.stop ≤ (calls i).target) ∧
    (calls (i + 1)).policy = .everyCrossing

/-- Some call before number `i` passed `c` back, and none between the two passed it forward. -/
def RearmedBefore (calls : Nat → Call) (c : Cue) (i : Nat) : Prop :=
  ∃ j < i, PassesBack calls c j ∧ ∀ k, j < k → k < i → ¬ PassesForward calls c k

theorem rearmedBefore_succ (calls : Nat → Call) (c : Cue) (i : Nat) :
    RearmedBefore calls c (i + 1) ↔
      PassesBack calls c i ∨ RearmedBefore calls c i ∧ ¬ PassesForward calls c i := by
  constructor
  · intro ⟨j, hj, hback, hnone⟩
    rcases Nat.lt_succ_iff_lt_or_eq.mp hj with hlt | heq
    · refine .inr ⟨⟨j, hlt, hback, fun k hjk hki => hnone k hjk (by omega)⟩, ?_⟩
      exact hnone i hlt (Nat.lt_succ_self i)
    · exact .inl (heq ▸ hback)
  · intro h
    rcases h with hback | ⟨⟨j, hj, hback, hnone⟩, hnot⟩
    · exact ⟨i, Nat.lt_succ_self i, hback, fun k hik hki => by omega⟩
    · refine ⟨j, by omega, hback, fun k hjk hki => ?_⟩
      rcases Nat.lt_succ_iff_lt_or_eq.mp hki with hlt | heq
      · exact hnone k hjk hlt
      · exact heq ▸ hnot

section
variable (t : Trigger) {cues : List Cue} (calls : Nat → Call)

theorem trace_previous (hc : Ordered cues) (n : Nat) :
    (trace t.reset cues calls (n + 1)).previous = some (calls n).target := by
  induction n with
  | zero => rfl
  | succ n ih => exact (advance_step ih hc _ _).2.1

theorem sent_zero : sent t.reset cues calls 0 = [] := rfl

theorem trace_step (hc : Ordered cues) (n : Nat) :
    sent t.reset cues calls (n + 1) = cues.filter (fun c =>
        ((calls n).target < c.stop ∧ c.stop ≤ (calls (n + 1)).target) ∧
          (trace t.reset cues calls (n + 1)).isArmed c = true) ∧
      (∀ m, m ∈ (trace t.reset cues calls (n + 2)).fired.offsets ↔
        m ∈ (trace t.reset cues calls (n + 1)).fired.offsets ∨
          m ∈ (sent t.reset cues calls (n + 1)).map (·.start)) ∧
      ∀ c ∈ cues, c.start ∈ (trace t.reset cues calls (n + 2)).rearmed.offsets ↔
        PassesBack calls c (n + 1) ∨ c.start ∈ (trace t.reset cues calls (n + 1)).rearmed.offsets ∧
          ¬ PassesForward calls c (n + 1) := by
  have hstep := advance_step (trace_previous t calls hc n) hc (calls (n + 1)).target
    (calls (n + 1)).policy
  exact ⟨hstep.1, hstep.2.2⟩

theorem trace_ascending (n : Nat) :
    (trace t.reset cues calls n).fired.offsets.Pairwise (· < ·) := by
  induction n with
  | zero => exact List.Pairwise.nil
  | succ n ih => exact advance_ascending ih _ _ _

theorem mem_fired_iff (hc : Ordered cues) (n : Nat) (m : Nat) :
    m ∈ (trace t.reset cues calls n).fired.offsets ↔
      ∃ k < n, ∃ c ∈ sent t.reset cues calls k, c.start = m := by
  induction n with
  | zero => simp [trace, reset]
  | succ n ih =>
    simp only [Nat.exists_lt_succ_right]
    rw [← ih]
    cases n with
    | zero => simp only [sent_zero, List.not_mem_nil, false_and, exists_false, or_false]; rfl
    | succ n =>
      rw [(trace_step t calls hc n).2.1 m, List.mem_map]

/-- A cue is rearmed if it was passed back under `Policy.everyCrossing` and not forward since. -/
theorem mem_rearmed_iff (hc : Ordered cues) (n : Nat) {c : Cue} (hcm : c ∈ cues) :
    c.start ∈ (trace t.reset cues calls n).rearmed.offsets ↔ RearmedBefore calls c n := by
  induction n with
  | zero => simp [trace, reset, RearmedBefore]
  | succ n ih =>
    rw [rearmedBefore_succ, ← ih]
    cases n with
    | zero => simp [trace, reset, advance, PassesBack]
    | succ n => exact (trace_step t calls hc n).2.2 c hcm

theorem sent_subset (hc : Ordered cues) (n : Nat) {c : Cue} (h : c ∈ sent t.reset cues calls n) :
    c ∈ cues := by
  cases n with
  | zero => cases h
  | succ n =>
    rw [(trace_step t calls hc n).1] at h
    exact (List.mem_filter.mp h).1

theorem sent_ascending (hc : Ordered cues) (n : Nat) :
    (sent t.reset cues calls n).Pairwise fun c d => c.start < d.start := by
  cases n with
  | zero => exact List.Pairwise.nil
  | succ n =>
    rw [(trace_step t calls hc n).1]
    exact hc.start_lt.filter _

/-- A call sends the cues that it passes forward and that were never sent or are rearmed. -/
theorem mem_sent_iff (hc : Ordered cues) (n : Nat) (c : Cue) :
    c ∈ sent t.reset cues calls n ↔ c ∈ cues ∧ PassesForward calls c n ∧
      ((∀ k < n, c ∉ sent t.reset cues calls k) ∨ RearmedBefore calls c n) := by
  cases n with
  | zero => simp [sent_zero, PassesForward]
  | succ n =>
    rw [(trace_step t calls hc n).1]
    simp only [List.mem_filter, decide_eq_true_eq, PassesForward]
    refine and_congr_right fun hcm => and_congr_right fun _ => ?_
    rw [isArmed_iff, mem_rearmed_iff t calls hc _ hcm, mem_fired_iff t calls hc, or_comm]
    refine or_congr ⟨fun hnot k hk hin => hnot ⟨k, hk, c, hin, rfl⟩, fun hnot hex => ?_⟩ Iff.rfl
    obtain ⟨k, hk, d, hd, hstart⟩ := hex
    rw [hc.eq_of_start_eq (sent_subset t calls hc k hd) hcm hstart] at hd
    exact hnot k hk hd

end

/-! ## One policy throughout -/

theorem not_rearmedBefore_of_once {calls : Nat → Call} (h : ∀ i, (calls i).policy = .once) (c : Cue)
    (i : Nat) : ¬ RearmedBefore calls c i := by
  intro ⟨j, _, hback, _⟩
  cases j with
  | zero => exact hback
  | succ j =>
    have hpolicy := hback.2
    rw [h] at hpolicy
    cases hpolicy

/-- Between a place behind the end of a cue and a later one before it the cue is passed back. -/
theorem rearmedBefore_of_every {calls : Nat → Call} (h : ∀ i, (calls i).policy = .everyCrossing)
    {c : Cue} {k n : Nat} (hkn : k ≤ n) (hk : c.stop ≤ (calls k).target)
    (hn : (calls n).target < c.stop) : RearmedBefore calls c (n + 1) := by
  induction n with
  | zero =>
    rw [Nat.le_zero.mp hkn] at hk
    omega
  | succ n ih =>
    rw [rearmedBefore_succ]
    by_cases hbefore : c.stop ≤ (calls n).target
    · exact .inl ⟨⟨hn, hbefore⟩, h _⟩
    · have hle : k ≤ n := by
        refine Nat.le_of_lt_succ (Nat.lt_of_le_of_ne hkn fun heq => ?_)
        subst heq
        exact Nat.not_le_of_lt hn hk
      refine .inr ⟨ih hle (Nat.lt_of_not_le hbefore), fun hforward => ?_⟩
      exact Nat.not_le_of_lt hn hforward.2

/-- **What a trigger sends.** A fresh trigger, or one that is reset, sends nothing at its first call.
Every call sends, in text order and each once, the cues whose end it passes forward and that were
never sent before, or were passed back by an earlier call under `Policy.everyCrossing` and not
forward since; and it says how many these are. Then the trigger is where the call led, and its fired cues, in ascending order, are
those sent since the reset. So under `Policy.once` throughout a cue is sent at its first crossing
only, and under `Policy.everyCrossing` throughout at every one. -/
theorem trace_law {cues : List Cue} (hc : Ordered cues) (t : Trigger) (calls : Nat → Call) :
    let trace := trace t.reset cues calls
    let sent := sent t.reset cues calls
    sent 0 = [] ∧
      (∀ i, ((sent i).Pairwise fun c d => c.start < d.start) ∧
        counted t.reset cues calls i = (sent i).length) ∧
      (∀ i c, c ∈ sent i ↔ c ∈ cues ∧ PassesForward calls c i ∧
        ((∀ k < i, c ∉ sent k) ∨
          ∃ j < i, PassesBack calls c j ∧ ∀ k, j < k → k < i → ¬ PassesForward calls c k)) ∧
      (∀ n, (trace (n + 1)).previous = some (calls n).target ∧
        (trace n).fired.offsets.Pairwise (· < ·) ∧
        ∀ m, m ∈ (trace n).fired.offsets ↔ ∃ k < n, ∃ c ∈ sent k, c.start = m) ∧
      ((∀ i, (calls i).policy = .once) → ∀ i c,
        c ∈ sent i ↔ c ∈ cues ∧ PassesForward calls c i ∧ ∀ k < i, ¬ PassesForward calls c k) ∧
      ((∀ i, (calls i).policy = .everyCrossing) → ∀ i c,
        c ∈ sent i ↔ c ∈ cues ∧ PassesForward calls c i) := by
  intro trace sent
  have hsent := mem_sent_iff t calls hc
  refine ⟨rfl, fun i => ?_, hsent, fun n => ?_, fun honce i c => ?_, fun hevery i c => ?_⟩
  · exact ⟨sent_ascending t calls hc i, advance_count ..⟩
  · exact ⟨trace_previous t calls hc n, trace_ascending t calls n, mem_fired_iff t calls hc n⟩
  · rw [hsent i c]
    refine and_congr_right fun hcm => and_congr_right fun _ => ?_
    simp only [not_rearmedBefore_of_once honce c i, or_false]
    constructor
    · intro hnever k hk hforward
      -- what no call up to `k` has sent is sent by call `k`
      refine hnever k hk ((hsent k c).mpr ⟨hcm, hforward, .inl fun l hl => ?_⟩)
      exact hnever l (Nat.lt_trans hl hk)
    · intro hnone k hk hin
      exact hnone k hk ((hsent k c).mp hin).2.1
  · rw [hsent i c]
    refine and_congr_right fun hcm => and_iff_left_of_imp fun hforward => ?_
    by_cases hbefore : ∃ k < i, c ∈ sent k
    · right
      obtain ⟨k, hk, hin⟩ := hbefore
      have hpassed := ((hsent k c).mp hin).2.1
      cases i with
      | zero => exact hforward.elim
      | succ i =>
        cases k with
        | zero => exact hpassed.elim
        | succ k =>
          exact rearmedBefore_of_every hevery (Nat.le_of_lt_succ hk) hpassed.2 hforward.1
    · exact .inl fun k hk hin => hbefore ⟨k, hk, hin⟩

/-- The policy changes on the way: the retreat under `Policy.once` rearms nothing, the one under
`Policy.everyCrossing` does, and the last call sends the cue again although its policy is to fire
once. -/
theorem sent_after_changed_policy :
    let c : Cue := ⟨.vfx, ['x'], {}, 1, 12, "[cue:vfx|x]".toList⟩
    let calls : Nat → Call := fun i => [⟨0, .once⟩, ⟨12, .once⟩, ⟨3, .once⟩, ⟨12, .once⟩,
      ⟨11, .everyCrossing⟩, ⟨20, .once⟩].getD i ⟨20, .once⟩
    Ordered [c] ∧ sent ({} : Trigger).reset [c] calls 3 = [] ∧
      PassesForward calls c 5 ∧ PassesBack calls c 4 ∧ c ∈ sent ({} : Trigger).reset [c] calls 5 := by
  intro c calls
  have hc : Ordered [c] := ⟨by simp [c], by simp⟩
  have hforward : PassesForward calls c 5 := by simp [PassesForward, calls, c]
  have hback : PassesBack calls c 4 := by simp [PassesBack, calls, c]
  obtain ⟨-, -, hsent, -⟩ := trace_law hc {} calls
  refine ⟨hc, by decide, hforward, hback, (hsent 5 c).mpr ⟨by simp, hforward, .inr ?_⟩⟩
  exact ⟨4, by omega, hback, fun k h4 h5 => by omega⟩

end Trigger

end CuedProse
