import Mathlib.Data.List.Induction
import CuedProse.Proofs.Markup.Context
import CuedProse.Proofs.Reading.Crossing
import CuedProse.Proofs.Visible.Rank
import CuedProse.Reading.Session

/-!
# Which cues fire

The trigger works on raw offsets and on sets of what has fired and what was rearmed. A reader only
knows visible offsets and what was seen to fire, and that is enough to say what fires next.

* `Chapter.due`: what has to fire when a reader goes from one visible offset to another, after the
  visits so far.
* `Chapter.Lawful`: the first visit fires nothing, every other one what is due.
* `Follows`: the invariant that ties a trigger to the visits; `Follows.move` is its step and
  `follows_visits` the run.
* `firing_law`: every run of a session since a text was entered is lawful; a cue in front of the
  visible text never fires, and under `Policy.once` every cue fires at most once.
-/
namespace CuedProse

/-! ## Cues in visible offsets -/

namespace Chapter

/-- The number of characters outside all cues that precede the cue `c`. -/
def rank (ch : Chapter) (c : Cue) : Nat :=
  Span.freeBelow (ch.cues.map fun d => ⟨d.start, d.stop⟩) c.start

/-- What the trigger relies on: the cues are in order, and the end of a cue is reached when all
visible characters before the cue are revealed. -/
structure Sound (ch : Chapter) : Prop where
  ordered : Trigger.Ordered ch.cues
  reached : ∀ c ∈ ch.cues, ∀ v, c.stop ≤ ch.projection.toRaw v ↔ ch.rank c ≤ v

theorem sound_ofText (text : Text) (o : Options) : (ofText text o).Sound where
  ordered := ⟨fun _ hc => Markup.start_lt_stop hc, Markup.cues_ordered text⟩
  reached c hc v := by
    have hcovered := Projection.count_of_covered
      (Span.isFree ((ofText text o).cues.map fun d => ⟨d.start, d.stop⟩))
      (Nat.le_of_lt (Markup.start_lt_stop hc)) fun r h1 h2 =>
        Span.isFree_eq_false.mpr ⟨_, List.mem_map_of_mem hc, h1, h2⟩
    have hle := Projection.le_toRaw_iff text.length
      ((ofText text o).cues.map fun d => ⟨d.start, d.stop⟩) (Markup.stop_le_length hc) v
    rw [show Span.freeBelow _ c.stop = (ofText text o).rank c from hcovered] at hle
    exact hle

end Chapter

/-! ## Visits -/

structure Visit where
  visible : Nat
  firings : List Firing
  deriving DecidableEq, Repr

theorem getElem?_snoc_succ {α : Type} {l : List α} {a b x y : α} {i : Nat}
    (hx : (l ++ [a] ++ [b])[i]? = some x) (hy : (l ++ [a] ++ [b])[i + 1]? = some y) :
    ((l ++ [a])[i]? = some x ∧ (l ++ [a])[i + 1]? = some y) ∨ (i = l.length ∧ x = a ∧ y = b) := by
  have hlt := (List.getElem?_eq_some_iff.mp hy).1
  simp only [List.length_append, List.length_singleton] at hlt
  by_cases hi : i = l.length
  · right
    rw [hi] at hx hy
    simp at hx hy
    exact ⟨hi, hx.symm, hy.symm⟩
  · left
    rw [List.getElem?_append_left (by simp only [List.length_append, List.length_singleton]; omega)]
      at hx hy
    exact ⟨hx, hy⟩

namespace Chapter

/-- What has to fire when a reader goes from the visible offset `v` to `w` after `earlier`. -/
def due (ch : Chapter) (earlier : List Visit) (v w : Nat) : List Firing :=
  (ch.cues.filter fun c => (v < ch.rank c ∧ ch.rank c ≤ w) ∧
    (ch.options.policy = .everyCrossing ∨ ∀ u ∈ earlier, Firing.ofCue c ∉ u.firings)).map
      Firing.ofCue

/-- The first visit fires nothing, every other one what is due. -/
structure Lawful (ch : Chapter) (visits : List Visit) : Prop where
  first : ∀ v, visits[0]? = some v → v.firings = []
  next : ∀ i v w, visits[i]? = some v → visits[i + 1]? = some w →
    w.firings = ch.due (visits.take (i + 1)) v.visible w.visible

namespace Lawful

variable {ch : Chapter} {visits : List Visit} {w : Visit}

theorem nil (ch : Chapter) : ch.Lawful [] := ⟨by simp, by simp⟩

theorem single (ch : Chapter) (h : w.firings = []) : ch.Lawful [w] := by
  refine ⟨fun v hv => ?_, fun i v u hv hu => by simp at hu⟩
  simp only [List.getElem?_cons_zero, Option.some.injEq] at hv
  rw [← hv, h]

theorem snoc {v : Visit} (h : ch.Lawful (visits ++ [v]))
    (hw : w.firings = ch.due (visits ++ [v]) v.visible w.visible) :
    ch.Lawful (visits ++ [v] ++ [w]) := by
  refine ⟨fun u hu => h.first u ?_, fun i u x hu hx => ?_⟩
  · rwa [List.getElem?_append_left (by simp)] at hu
  · rcases getElem?_snoc_succ hu hx with ⟨hu, hx⟩ | ⟨hi, hu, hx⟩
    · have := (List.getElem?_eq_some_iff.mp hx).1
      rw [List.take_append_of_le_length (by omega)]
      exact h.next i u x hu hx
    · rw [hi, hu, hx, List.take_append_of_le_length (by simp), List.take_of_length_le (by simp)]
      exact hw

theorem last {v : Visit} (h : ch.Lawful (visits ++ [v] ++ [w])) :
    w.firings = ch.due (visits ++ [v]) v.visible w.visible := by
  have hnext := h.next visits.length v w (by simp) (by simp)
  rwa [List.take_append_of_le_length (by simp), List.take_of_length_le (by simp)] at hnext

theorem init (h : ch.Lawful (visits ++ [w])) : ch.Lawful visits := by
  refine ⟨fun v hv => h.first v ?_, fun i v u hv hu => ?_⟩
  · rw [List.getElem?_append_left (List.getElem?_eq_some_iff.mp hv).1, hv]
  · have hi := (List.getElem?_eq_some_iff.mp hu).1
    rw [h.next i v u (by rw [List.getElem?_append_left (by omega), hv])
      (by rw [List.getElem?_append_left hi, hu]), List.take_append_of_le_length (by omega)]

end Lawful

end Chapter

/-! ## At most once -/

namespace Chapter

variable {ch : Chapter} {visits : List Visit}

theorem Sound.ofCue_eq_iff (hs : ch.Sound) {c d : Cue} (hc : c ∈ ch.cues) (hd : d ∈ ch.cues) :
    Firing.ofCue c = Firing.ofCue d ↔ c = d := by
  constructor
  · intro h
    exact hs.ordered.eq_of_start_eq hc hd (congrArg Firing.start h)
  · intro h
    rw [h]

theorem Sound.mem_due (hs : ch.Sound) {c : Cue} (hc : c ∈ ch.cues) (earlier : List Visit)
    (v w : Nat) :
    Firing.ofCue c ∈ ch.due earlier v w ↔ (v < ch.rank c ∧ ch.rank c ≤ w) ∧
      (ch.options.policy = .everyCrossing ∨ ∀ u ∈ earlier, Firing.ofCue c ∉ u.firings) := by
  unfold due
  constructor
  · intro h
    obtain ⟨d, hd, hdc⟩ := List.mem_map.mp h
    have hmem := List.mem_filter.mp hd
    rw [hs.ofCue_eq_iff hmem.1 hc] at hdc
    rw [hdc] at hmem
    exact of_decide_eq_true hmem.2
  · intro h
    exact List.mem_map_of_mem (List.mem_filter.mpr ⟨hc, decide_eq_true h⟩)

theorem Sound.nodup_due (hs : ch.Sound) (earlier : List Visit) (v w : Nat) :
    (ch.due earlier v w).Nodup := by
  unfold due List.Nodup
  rw [List.pairwise_map]
  refine (hs.ordered.start_lt.filter _).imp fun {c d} h he => ?_
  have := congrArg Firing.start he
  simp only [Firing.ofCue] at this
  omega

/-- Some two successive visits have the visible text before `c` revealed only by the second one. -/
def Crossed (ch : Chapter) (visits : List Visit) (c : Cue) : Prop :=
  ∃ i v w, visits[i]? = some v ∧ visits[i + 1]? = some w ∧
    v.visible < ch.rank c ∧ ch.rank c ≤ w.visible

theorem not_crossed_single (ch : Chapter) (w : Visit) (c : Cue) : ¬ ch.Crossed [w] c := by
  intro ⟨i, v, u, hv, hu, _⟩
  simp at hu

theorem crossed_snoc (ch : Chapter) (visits : List Visit) (v w : Visit) (c : Cue) :
    ch.Crossed (visits ++ [v] ++ [w]) c ↔
      ch.Crossed (visits ++ [v]) c ∨ (v.visible < ch.rank c ∧ ch.rank c ≤ w.visible) := by
  constructor
  · intro ⟨i, u, x, hu, hx, h⟩
    rcases getElem?_snoc_succ hu hx with ⟨hu, hx⟩ | ⟨-, hu, hx⟩
    · exact .inl ⟨i, u, x, hu, hx, h⟩
    · rw [hu, hx] at h
      exact .inr h
  · intro h
    cases h with
    | inl h =>
      obtain ⟨i, u, x, hu, hx, h⟩ := h
      have hi := (List.getElem?_eq_some_iff.mp hx).1
      refine ⟨i, u, x, ?_, ?_, h⟩
      · rw [List.getElem?_append_left (by omega), hu]
      · rw [List.getElem?_append_left hi, hx]
    | inr h =>
      refine ⟨visits.length, v, w, ?_, ?_, h⟩
      · rw [List.getElem?_append_left (by simp), List.getElem?_concat_length]
      · rw [← List.getElem?_concat_length (l := visits ++ [v]) (a := w)]
        simp

namespace Lawful

/-- Under `Policy.once` the last visit fires a cue that it crosses and that none fired before. -/
theorem count_last (hs : ch.Sound) (ho : ch.options.policy = .once) {c : Cue} (hc : c ∈ ch.cues)
    {v w : Visit} (h : ch.Lawful (visits ++ [v] ++ [w])) :
    w.firings.count (Firing.ofCue c) =
      if (v.visible < ch.rank c ∧ ch.rank c ≤ w.visible) ∧
        ((visits ++ [v]).flatMap (·.firings)).count (Firing.ofCue c) = 0 then 1 else 0 := by
  rw [h.last, (hs.nodup_due (visits ++ [v]) v.visible w.visible).count]
  have hnew : ((visits ++ [v]).flatMap (·.firings)).count (Firing.ofCue c) = 0 ↔
      ∀ u ∈ visits ++ [v], Firing.ofCue c ∉ u.firings := by
    rw [List.count_eq_zero, List.mem_flatMap]
    simp only [not_exists, not_and]
  have hmem := hs.mem_due hc (visits ++ [v]) v.visible w.visible
  rw [ho] at hmem
  simp only [reduceCtorEq, false_or] at hmem
  rw [← hnew] at hmem
  simp only [hmem]

/-- Under `Policy.once` a cue fires at its first crossing and never again. -/
theorem count_le_one (hs : ch.Sound) (ho : ch.options.policy = .once) {c : Cue}
    (hc : c ∈ ch.cues) (h : ch.Lawful visits) :
    (visits.flatMap (·.firings)).count (Firing.ofCue c) ≤ 1 ∧
      ((visits.flatMap (·.firings)).count (Firing.ofCue c) = 1 ↔ ch.Crossed visits c) := by
  induction visits using List.reverseRecOn with
  | nil => exact ⟨by simp, by simp [Crossed]⟩
  | append_singleton visits w ih =>
    rcases List.eq_nil_or_concat visits with hnil | ⟨init, v, hv⟩
    · rw [hnil, List.nil_append] at h ⊢
      have hfirst := h.first w rfl
      have hnone := not_crossed_single ch w c
      simp [hfirst, hnone]
    · rw [List.concat_eq_append] at hv
      rw [hv] at h ih ⊢
      obtain ⟨ih1, ih2⟩ := ih h.init
      have hlast := h.count_last hs ho hc
      rw [crossed_snoc, ← ih2, List.flatMap_append, List.count_append]
      simp only [List.flatMap_singleton, hlast]
      split <;> omega

/-- A cue in front of all visible text never fires. -/
theorem not_mem_of_rank_zero (hs : ch.Sound) {c : Cue} (hc : c ∈ ch.cues) (hz : ch.rank c = 0)
    (h : ch.Lawful visits) {w : Visit} (hw : w ∈ visits) : Firing.ofCue c ∉ w.firings := by
  obtain ⟨i, hi⟩ := List.mem_iff_getElem?.mp hw
  cases i with
  | zero =>
    rw [h.first w hi]
    simp
  | succ i =>
    have hlt := (List.getElem?_eq_some_iff.mp hi).1
    rw [h.next i visits[i] w (List.getElem?_eq_getElem (by omega)) hi, hs.mem_due hc, hz]
    omega

end Lawful

end Chapter

/-! ## The invariant -/

/-- The trigger `t` is what `visits` to the chapter `ch` leave behind. -/
structure Follows (ch : Chapter) (visits : List Visit) (t : Trigger) : Prop where
  lawful : ch.Lawful visits
  previous : t.previous = visits.getLast?.map fun v => ch.projection.toRaw v.visible
  fired : ∀ c ∈ ch.cues,
    c.start ∈ t.fired.offsets ↔ ∃ v ∈ visits, Firing.ofCue c ∈ v.firings
  once : ch.options.policy = .once → t.rearmed.offsets = []
  /-- A cue that fired and lies ahead again was rearmed on the way back. -/
  every : ch.options.policy = .everyCrossing → ∀ c ∈ ch.cues, c.start ∈ t.fired.offsets →
    ∀ r, t.previous = some r → r < c.stop → c.start ∈ t.rearmed.offsets

/-- The visit that a move of the trigger to the visible offset `w` makes, and the trigger then. -/
def Chapter.move (ch : Chapter) (t : Trigger) (w : Nat) : Visit × Trigger :=
  (⟨w, (t.advance (ch.projection.toRaw w) ch.cues ch.options.policy).sent.map Firing.ofCue⟩,
    (t.advance (ch.projection.toRaw w) ch.cues ch.options.policy).trigger)

theorem exists_fired_snoc {visits : List Visit} {w : Visit} {f : Firing} :
    (∃ v ∈ visits ++ [w], f ∈ v.firings) ↔ (∃ v ∈ visits, f ∈ v.firings) ∨ f ∈ w.firings := by
  simp [or_and_right, exists_or]

namespace Follows

variable {ch : Chapter} {visits : List Visit} {t : Trigger}

theorem nil (ch : Chapter) : Follows ch [] {} where
  lawful := .nil ch
  previous := rfl
  fired := by simp
  once _ := rfl
  every := by simp

/-- A cue ahead is armed if its policy or its past allows it. -/
theorem isArmed_iff (h : Follows ch visits t) {c : Cue} (hc : c ∈ ch.cues) {r : Nat}
    (hr : t.previous = some r) (hlt : r < c.stop) :
    t.isArmed c = true ↔
      ch.options.policy = .everyCrossing ∨ ∀ u ∈ visits, Firing.ofCue c ∉ u.firings := by
  have hfired := h.fired c hc
  rw [Trigger.isArmed_iff]
  cases hpol : ch.options.policy with
  | once =>
    rw [h.once hpol, hfired]
    simp
  | everyCrossing =>
    have hevery := h.every hpol c hc
    simp only [true_or, iff_true]
    by_cases hin : c.start ∈ t.fired.offsets
    · exact .inl (hevery hin r hr hlt)
    · exact .inr hin

theorem move_first (h : Follows ch [] t) (w : Nat) :
    Follows ch [(ch.move t w).1] (ch.move t w).2 := by
  unfold Chapter.move
  rw [Trigger.advance_first h.previous]
  refine ⟨.single _ rfl, rfl, fun c hc => ?_, h.once, fun hp c hc hf => ?_⟩
  · rw [h.fired c hc]
    simp
  · have := (h.fired c hc).mp hf
    simp at this

/-- Back: nothing fires, and nothing was due. -/
theorem move_back (hs : ch.Sound) {v : Visit} (h : Follows ch (visits ++ [v]) t) {w : Nat}
    (hlt : ch.projection.toRaw w < ch.projection.toRaw v.visible) :
    Follows ch (visits ++ [v] ++ [(ch.move t w).1]) (ch.move t w).2 := by
  have hprev : t.previous = some (ch.projection.toRaw v.visible) := by
    rw [h.previous]
    simp
  obtain ⟨h1, h2, h3, h4⟩ := Trigger.advance_back hprev hlt hs.ordered ch.options.policy
  have hdue : ch.due (visits ++ [v]) v.visible w = [] := by
    unfold Chapter.due
    rw [List.map_eq_nil_iff, List.filter_eq_nil_iff]
    intro c hc hcross
    have hv := hs.reached c hc v.visible
    have hw := hs.reached c hc w
    have := (of_decide_eq_true hcross).1
    omega
  unfold Chapter.move
  rw [h1]
  refine ⟨h.lawful.snoc hdue.symm, ?_, fun c hc => ?_, fun hp => ?_, fun hp c hc hf r hr hrc => ?_⟩
  · simp [h2]
  · rw [exists_fired_snoc, ← h.fired c hc]
    simp [h3]
  · refine List.eq_nil_iff_forall_not_mem.mpr fun m hm => ?_
    simp only at hm
    rw [h4, h.once hp] at hm
    simp [hp] at hm
  · simp only at hf hr ⊢
    rw [h2, Option.some.injEq] at hr
    rw [h3] at hf
    rw [h4]
    by_cases hpassed : c.stop ≤ ch.projection.toRaw v.visible
    · exact .inr ⟨hp, c, hc, ⟨by omega, hpassed⟩, rfl⟩
    · exact .inl (h.every hp c hc hf _ hprev (by omega))

/-- Forward: the armed ones of the crossed cues fire, and they are what is due. -/
theorem move_forward (hs : ch.Sound) {v : Visit} (h : Follows ch (visits ++ [v]) t) {w : Nat}
    (hle : ch.projection.toRaw v.visible ≤ ch.projection.toRaw w) :
    Follows ch (visits ++ [v] ++ [(ch.move t w).1]) (ch.move t w).2 := by
  have hprev : t.previous = some (ch.projection.toRaw v.visible) := by
    rw [h.previous]
    simp
  obtain ⟨h1, h2, h3, h4⟩ := Trigger.advance_forward hprev hle hs.ordered ch.options.policy
  simp only at h2 h3 h4
  have hdue : (ch.move t w).1.firings = ch.due (visits ++ [v]) v.visible w := by
    unfold Chapter.move Chapter.due
    rw [h1]
    refine congrArg (List.map Firing.ofCue) (List.filter_congr fun c hc => ?_)
    have hv := hs.reached c hc v.visible
    have hw := hs.reached c hc w
    refine decide_eq_decide.mpr ?_
    rw [hw, ← Nat.not_le, hv, Nat.not_le]
    refine and_congr_right fun hcross => h.isArmed_iff hc hprev ?_
    omega
  -- a cue is known by its start, so the sets change by what fires
  have hstarts : ∀ c ∈ ch.cues,
      c.start ∈ (t.advance (ch.projection.toRaw w) ch.cues ch.options.policy).sent.map (·.start) ↔
        Firing.ofCue c ∈ (ch.move t w).1.firings := by
    intro c hc
    unfold Chapter.move
    rw [List.mem_map, List.mem_map]
    refine exists_congr fun d => and_congr_right fun hd => ?_
    rw [h1] at hd
    have hd' := (List.mem_filter.mp hd).1
    rw [hs.ofCue_eq_iff hd' hc]
    exact ⟨hs.ordered.eq_of_start_eq hd' hc, congrArg Cue.start⟩
  refine ⟨h.lawful.snoc hdue, ?_, fun c hc => ?_, fun hp => ?_, fun hp c hc hf r hr hrc => ?_⟩
  · simp [Chapter.move, h2]
  · rw [exists_fired_snoc, ← h.fired c hc, ← hstarts c hc]
    exact h3 c.start
  · refine List.eq_nil_iff_forall_not_mem.mpr fun m hm => ?_
    have := (h4 m).mp hm
    simp [h.once hp] at this
  · have hr' : ch.projection.toRaw w = r := by
      have := h2.symm.trans hr
      simpa using this
    have hnot : Firing.ofCue c ∉ (ch.move t w).1.firings := by
      rw [hdue, hs.mem_due hc, ← hs.reached c hc w]
      omega
    have hbefore := (h3 c.start).mp hf
    rw [hstarts c hc] at hbefore
    refine (h4 c.start).mpr ⟨?_, by rwa [hstarts c hc]⟩
    exact h.every hp c hc (hbefore.resolve_right hnot) _ hprev (by omega)

theorem move (hs : ch.Sound) (h : Follows ch visits t) (w : Nat) :
    Follows ch (visits ++ [(ch.move t w).1]) (ch.move t w).2 := by
  rcases List.eq_nil_or_concat visits with hnil | ⟨init, v, hv⟩
  · rw [hnil] at h ⊢
    exact h.move_first w
  · rw [List.concat_eq_append] at hv
    rw [hv] at h ⊢
    by_cases hlt : ch.projection.toRaw w < ch.projection.toRaw v.visible
    · exact h.move_back hs hlt
    · exact h.move_forward hs (Nat.le_of_not_lt hlt)

end Follows

/-! ## Runs of a session -/

namespace Session

/-- Whether a request leaves the chapter as it is: it is no load, or a load that fails. -/
def Request.KeepsChapter : Request → Prop
  | .load _ => False
  | .loadFile path content => ∀ read, readChapter path content ≠ .ok read
  | .sample _ | .update _ | .jump _ => True

/-- The visit that an answer reports. -/
def Reply.visit? : Reply → Option Visit
  | .sampled position firings => some ⟨position.visible, firings⟩
  | .updated frame => some ⟨frame.position.visible, frame.firings⟩
  | .loaded | .failed _ => none

/-- The visits that requests make, one after the other. -/
def visits (s : Session) : List Request → List Visit
  | [] => []
  | r :: requests =>
    (s.handle r).reply.visit?.toList ++ (s.handle r).session.visits requests

/-- A request that keeps the chapter makes no visit and leaves the trigger, or it moves the
trigger. -/
theorem handle_of_keepsChapter (s : Session) {r : Request} (hr : r.KeepsChapter) :
    (s.handle r).session.chapter = s.chapter ∧
      (((s.handle r).reply.visit? = none ∧
          (s.handle r).session.reader.trigger = s.reader.trigger) ∨
        ∃ w, (s.handle r).reply.visit? = some (s.chapter.move s.reader.trigger w).1 ∧
          (s.handle r).session.reader.trigger = (s.chapter.move s.reader.trigger w).2) := by
  cases r with
  | load source => exact hr.elim
  | loadFile path content =>
    have hfail : ∃ failure, s.loadFile path content = .error failure := by
      unfold loadFile
      cases hread : readChapter path content with
      | error failure => exact ⟨failure, rfl⟩
      | ok read => exact absurd hread (hr read)
    obtain ⟨failure, hfail⟩ := hfail
    have hsame : s.handle (.loadFile path content) = ⟨s, .failed failure, []⟩ := by
      simp only [handle, hfail]
    rw [hsame]
    exact ⟨rfl, .inl ⟨rfl, rfl⟩⟩
  | sample p => exact ⟨rfl, .inr ⟨(s.chapter.position p).visible, rfl, rfl⟩⟩
  | update p => exact ⟨rfl, .inr ⟨(s.chapter.position p).visible, rfl, rfl⟩⟩
  | jump raw =>
    exact ⟨rfl, .inr ⟨(s.chapter.position (s.chapter.progressAt raw)).visible, rfl, rfl⟩⟩

theorem follows_visits {s : Session} (hs : s.chapter.Sound) {before : List Visit}
    (h : Follows s.chapter before s.reader.trigger) {requests : List Request}
    (hkeep : ∀ r ∈ requests, r.KeepsChapter) :
    ∃ t, Follows s.chapter (before ++ s.visits requests) t := by
  induction requests generalizing s before with
  | nil =>
    simp only [visits, List.append_nil]
    exact ⟨_, h⟩
  | cons r requests ih =>
    have hrest := fun r hr => hkeep r (List.mem_cons_of_mem _ hr)
    obtain ⟨hch, hstep⟩ := s.handle_of_keepsChapter (hkeep r (List.mem_cons_self ..))
    rw [visits, ← hch]
    rw [← hch] at hs h
    cases hstep with
    | inl hstep =>
      obtain ⟨hnone, ht⟩ := hstep
      rw [hnone]
      exact ih hs (ht ▸ h) hrest
    | inr hstep =>
      obtain ⟨w, hsome, ht⟩ := hstep
      rw [hsome, Option.toList_some, ← List.append_assoc]
      refine ih hs ?_ hrest
      rw [ht, ← hch]
      exact h.move hs w

/-- **Which cues fire.** After a text has been entered, and until the next one is, the first visit
fires nothing, and every other one fires, in text order, the cues that the reader crosses: those
before which there are more visible characters than were revealed, and no more than are revealed
now. Under `Policy.once` a cue that fired before is left out. So a cue in front of the visible text
never fires, and under `Policy.once` every cue fires at most once, namely if it is crossed. -/
theorem firing_law (s : Session) (text : Text) (requests : List Request)
    (hkeep : ∀ r ∈ requests, r.KeepsChapter) :
    let ch := Chapter.ofText text s.chapter.options
    let visits := (s.enter text).visits requests
    (ch.cues.Pairwise fun c d => c.start < d.start) ∧
      ch.Lawful visits ∧
      (∀ c ∈ ch.cues, ch.rank c = 0 → ∀ v ∈ visits, Firing.ofCue c ∉ v.firings) ∧
      (ch.options.policy = .once → ∀ c ∈ ch.cues,
        (visits.flatMap (·.firings)).count (Firing.ofCue c) ≤ 1 ∧
          ((visits.flatMap (·.firings)).count (Firing.ofCue c) = 1 ↔ ch.Crossed visits c)) := by
  intro ch visits
  have hs : ch.Sound := Chapter.sound_ofText text s.chapter.options
  obtain ⟨t, ht⟩ := follows_visits (s := s.enter text) hs (.nil ch) hkeep
  have hlawful : ch.Lawful visits := ht.lawful
  refine ⟨hs.ordered.start_lt, hlawful, fun c hc hz v hv => ?_, fun ho c hc => ?_⟩
  · exact hlawful.not_mem_of_rank_zero hs hc hz hv
  · exact hlawful.count_le_one hs ho hc

/-- The reader goes back over a cue, a load fails, and the cue is crossed again. -/
theorem fires_once_after_going_back :
    let s : Session := { chapter := Chapter.ofText [] {} }
    let requests : List Request :=
      [.sample 0, .update 1, .sample 0, .loadFile "b" (.error .notFound), .jump 13]
    (∀ r ∈ requests, r.KeepsChapter) ∧
      (((s.enter "a[cue:vfx|x]b".toList).visits requests).flatMap (·.firings)).count
        ⟨.vfx, ['x'], {}, 1, 12⟩ = 1 := by
  intro s requests
  have hkeep : ∀ r ∈ requests, r.KeepsChapter := by
    simp [requests, Request.KeepsChapter, readChapter]
  obtain ⟨-, -, -, honce⟩ := firing_law s "a[cue:vfx|x]b".toList requests hkeep
  have hcue := honce rfl ⟨.vfx, ['x'], {}, 1, 12, "[cue:vfx|x]".toList⟩ (by decide)
  refine ⟨hkeep, hcue.2.mpr ⟨0, ⟨0, []⟩, ⟨2, [⟨.vfx, ['x'], {}, 1, 12⟩]⟩, ?_⟩⟩
  decide +kernel

end Session

end CuedProse
