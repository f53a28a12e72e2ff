import CuedProse.Pointer.Tooltip
import CuedProse.Proofs.Pointer.Spots

/-!
# What a tooltip reports over time

A tooltip keeps the number of a marker and nothing else, and every move may bring another map. Over
any run of calls its reports come in stays: the pointer is found over one marker, move after move,
and then it is reported to leave.

**Traces.** `trace t calls n` is the tooltip after the first `n` of `calls`, `told t calls n` is
what call number `n` reports, and `report t calls n` is what the first `n` calls report together.

* `Call.visit?`: the marker that a call finds, if any. On a map that was made by registering
  markers it is the first one registered at the cell (`Call.visit?_eq_some_iff`), and a number that
  is found always has a group (`Call.hit_eq`).
* `handle_spec`: what one call does to a tooltip, and what it reports.
* `Stays`: reports that come stay by stay; `Stays.visit` and `Stays.leave` are the two steps.
* `stays_law`: the reports of every run do.
-/
namespace CuedProse.Tooltip

/-! ## One call -/

/-- One call of a tooltip. Every move brings the map of what is on the screen then. -/
inductive Call where
  /-- The pointer moves to a cell. -/
  | move (map : MarkerMap) (cell : Cell)
  /-- The pointer leaves the text. -/
  | leave

/-- A marker that the pointer is found over, and where. -/
structure Visit where
  marker : Nat
  group : Group
  cell : Cell
  deriving DecidableEq, Repr

def Visit.event (v : Visit) : TooltipEvent := .hover v.group.cues v.cell

namespace Call

/-- The number of the marker that a call finds under the pointer. -/
def hit : Call → Option Nat
  | move m c => m.markerAt? c
  | leave => none

/-- The visit that a call is. -/
def visit? : Call → Option Visit
  | move m c => (m.markerAt? c).bind fun i => (m.group? i).map fun g => ⟨i, g, c⟩
  | leave => none

/-- The map of a move was made by registering markers. -/
def OnRegistered : Call → Prop
  | move m _ => ∃ ss, m.Registers ss
  | leave => True

/-- A move visits the marker that was registered first at the cell. -/
theorem visit?_eq_some_iff {m : MarkerMap} {ss : List Spot} (h : m.Registers ss) (c : Cell)
    (v : Visit) : (move m c).visit? = some v ↔
      v.cell = c ∧ ∃ s, Spot.FirstAt ss c v.marker s ∧ v.group = s.group := by
  simp only [visit?, Option.bind_eq_some_iff, Option.map_eq_some_iff, h.lists.group?_eq,
    h.lists.markerAt?_eq_some_iff]
  constructor
  · rintro ⟨i, ⟨s, hs⟩, g, ⟨s', hs', rfl⟩, rfl⟩
    rw [hs.1, Option.some.injEq] at hs'
    exact ⟨rfl, s, hs, by rw [hs']⟩
  · rintro ⟨rfl, s, hs, hg⟩
    exact ⟨v.marker, ⟨s, hs⟩, s.group, ⟨s, hs.1, rfl⟩, by rw [← hg]⟩

theorem hit_eq {call : Call} (h : call.OnRegistered) : call.hit = call.visit?.map (·.marker) := by
  cases call with
  | leave => rfl
  | move m c =>
    obtain ⟨ss, hss⟩ := h
    cases hhit : m.markerAt? c with
    | none => simp [hit, visit?, hhit]
    | some i =>
      obtain ⟨s, hs⟩ := (hss.lists.markerAt?_eq_some_iff c i).mp hhit
      have hvisit := (visit?_eq_some_iff hss c ⟨i, s.group, c⟩).mpr ⟨rfl, s, hs, rfl⟩
      rw [hvisit, hit, hhit]
      rfl

end Call

def handle (t : Tooltip) : Call → Tooltip × List TooltipEvent
  | .move m c => t.move m c
  | .leave => t.leave

theorem move_of_miss {m : MarkerMap} {c : Cell} (h : m.markerAt? c = none) (t : Tooltip) :
    t.move m c = t.leave := by
  obtain ⟨active⟩ := t
  cases active <;> simp [move, leave, h]

theorem move_of_hit {m : MarkerMap} {c : Cell} {i : Nat} {g : Group} (h : m.markerAt? c = some i)
    (hg : m.group? i = some g) (t : Tooltip) :
    t.move m c =
      (⟨some i⟩, (if t.active = some i then [] else t.leave.2) ++ [.hover g.cues c]) := by
  by_cases hsame : t.active = some i <;> simp [move, h, hg, hsame]

/-- After a call the marker that it finds is active. A call reports that the pointer left if that is
not the marker that was active, and then the visit. -/
theorem handle_spec {call : Call} (h : call.OnRegistered) (t : Tooltip) :
    (t.handle call).1.active = call.hit ∧
      (t.handle call).2 = (if t.active ≠ none ∧ t.active ≠ call.hit then [.leave] else []) ++
        (call.visit?.map Visit.event).toList := by
  have hleave : t.leave.2 = if t.active ≠ none then [.leave] else [] := by
    cases ht : t.active <;> simp [leave, ht]
  cases call with
  | leave =>
    refine ⟨rfl, ?_⟩
    simp [handle, hleave, Call.hit, Call.visit?]
  | move m c =>
    obtain ⟨ss, hss⟩ := h
    cases hhit : m.markerAt? c with
    | none =>
      rw [handle, move_of_miss hhit, hleave]
      simp [leave, Call.hit, Call.visit?, hhit]
    | some i =>
      obtain ⟨s, hs⟩ := (hss.lists.markerAt?_eq_some_iff c i).mp hhit
      have hgroup : m.group? i = some s.group := by rw [hss.lists.group?_eq, hs.1]; rfl
      rw [handle, move_of_hit hhit hgroup, hleave]
      by_cases hsame : t.active = some i
      · simp [Call.hit, Call.visit?, Visit.event, hhit, hgroup, hsame]
      · simp [Call.hit, Call.visit?, Visit.event, hhit, hgroup, hsame]

/-! ## Stays -/

/-- The reports `events` of `visits` come stay by stay. All visits of a stay are to one marker, and
a stay has ended with a report that the pointer left. The last stay is still going on if a marker is
active. -/
structure Stays (events : List TooltipEvent) (visits : List Visit) (active : Option Nat)
    (ended : List (List Visit)) (current : List Visit) : Prop where
  events_eq : events =
    ended.flatMap (fun stay => stay.map Visit.event ++ [.leave]) ++ current.map Visit.event
  visits_eq : visits = ended.flatten ++ current
  nonempty : [] ∉ ended
  one_marker : ∀ stay ∈ current :: ended, ∀ v ∈ stay, ∀ w ∈ stay, v.marker = w.marker
  active_eq : active = current.getLast?.map (·.marker)

theorem stays_nil : Stays [] [] none [] [] := ⟨rfl, rfl, by simp, by simp, rfl⟩

namespace Stays

variable {events : List TooltipEvent} {visits : List Visit} {active : Option Nat}
  {ended : List (List Visit)} {current : List Visit}

theorem current_eq_nil (h : Stays events visits none ended current) : current = [] := by
  have hlast := h.active_eq
  rwa [eq_comm, Option.map_eq_none_iff, List.getLast?_eq_none_iff] at hlast

theorem marker_eq {i : Nat} (h : Stays events visits (some i) ended current) {v : Visit}
    (hv : v ∈ current) : v.marker = i := by
  obtain ⟨w, hw, hi⟩ := Option.map_eq_some_iff.mp h.active_eq.symm
  rw [← hi]
  exact h.one_marker current (List.mem_cons_self ..) v hv w (List.mem_of_getLast? hw)

theorem visit (h : Stays events visits active ended current) (v : Visit)
    (hactive : active = none ∨ active = some v.marker) :
    Stays (events ++ [v.event]) (visits ++ [v]) (some v.marker) ended (current ++ [v]) := by
  have hsame : ∀ w ∈ current, w.marker = v.marker := by
    rcases hactive with rfl | rfl
    · rw [h.current_eq_nil]
      simp
    · exact fun w hw => h.marker_eq hw
  refine ⟨?_, ?_, h.nonempty, ?_, ?_⟩
  · rw [h.events_eq, List.append_assoc, List.map_append]
    rfl
  · rw [h.visits_eq, List.append_assoc]
  · obtain ⟨-, hended⟩ := List.forall_mem_cons.mp h.one_marker
    refine List.forall_mem_cons.mpr ⟨fun w hw u hu => ?_, hended⟩
    have hmarker : ∀ w ∈ current ++ [v], w.marker = v.marker := by
      simpa [or_imp, forall_and] using hsame
    rw [hmarker w hw, hmarker u hu]
  · rw [List.getLast?_concat]
    rfl

theorem leave {i : Nat} (h : Stays events visits (some i) ended current) :
    Stays (events ++ [.leave]) visits none (ended ++ [current]) [] := by
  have hne : current ≠ [] := by
    rintro rfl
    cases h.active_eq
  refine ⟨?_, ?_, ?_, ?_, rfl⟩
  · rw [h.events_eq, List.flatMap_append]
    simp
  · rw [h.visits_eq]
    simp
  · simpa [h.nonempty] using hne.symm
  · intro stay hstay
    have hmem : stay = [] ∨ stay ∈ current :: ended := by
      simpa [or_comm, or_assoc] using hstay
    rcases hmem with rfl | hmem
    · simp
    · exact h.one_marker stay hmem

/-- One call keeps the reports in stays. -/
theorem handle {t : Tooltip} (h : Stays events visits t.active ended current) {call : Call}
    (hcall : call.OnRegistered) :
    ∃ ended current, Stays (events ++ (t.handle call).2) (visits ++ call.visit?.toList)
      (t.handle call).1.active ended current := by
  obtain ⟨hafter, htold⟩ := handle_spec hcall t
  have hhit := Call.hit_eq hcall
  -- first the pointer may leave a marker, then it may visit one
  have hleft : ∃ ended current active, (active = none ∨ active = call.hit) ∧
      Stays (events ++ if t.active ≠ none ∧ t.active ≠ call.hit then [.leave] else []) visits
        active ended current := by
    split
    · rename_i hchange
      obtain ⟨i, hi⟩ := Option.ne_none_iff_exists'.mp hchange.1
      rw [hi] at h
      exact ⟨_, _, none, .inl rfl, h.leave⟩
    · rename_i hsame
      rw [List.append_nil]
      refine ⟨ended, current, t.active, ?_, h⟩
      by_cases hnone : t.active = none
      · exact .inl hnone
      · exact .inr (Decidable.not_not.mp fun hne => hsame ⟨hnone, hne⟩)
  obtain ⟨ended, current, active, hactive, hstays⟩ := hleft
  rw [htold, hafter, hhit, ← List.append_assoc]
  rw [hhit] at hactive hstays
  cases hvisit : call.visit? with
  | none =>
    rw [hvisit] at hactive hstays
    have hnone : active = none := hactive.elim id id
    subst hnone
    exact ⟨ended, current, by simpa using hstays⟩
  | some v =>
    rw [hvisit] at hactive hstays
    exact ⟨ended, current ++ [v], hstays.visit v hactive⟩

end Stays

/-! ## Runs of calls -/

/-- The tooltip after the first `n` of `calls`. -/
def trace (t : Tooltip) (calls : Nat → Call) : Nat → Tooltip
  | 0 => t
  | n + 1 => ((trace t calls n).handle (calls n)).1

def told (t : Tooltip) (calls : Nat → Call) (n : Nat) : List TooltipEvent :=
  ((trace t calls n).handle (calls n)).2

def report (t : Tooltip) (calls : Nat → Call) (n : Nat) : List TooltipEvent :=
  (List.range n).flatMap (told t calls)

def visits (calls : Nat → Call) (n : Nat) : List Visit :=
  (List.range n).filterMap fun k => (calls k).visit?

theorem report_succ (t : Tooltip) (calls : Nat → Call) (n : Nat) :
    report t calls (n + 1) = report t calls n ++ told t calls n := by
  simp [report, List.range_succ]

theorem visits_succ (calls : Nat → Call) (n : Nat) :
    visits calls (n + 1) = visits calls n ++ (calls n).visit?.toList := by
  rw [visits, List.range_succ, List.filterMap_append, visits]
  cases h : (calls n).visit? <;> simp [h]

section
variable {calls : Nat → Call} (hcalls : ∀ n, (calls n).OnRegistered)

include hcalls

/-- The marker that is active is the one that the last call found. -/
theorem trace_active (t : Tooltip) (n : Nat) : (trace t calls (n + 1)).active = (calls n).hit :=
  (handle_spec (hcalls n) _).1

theorem told_eq (t : Tooltip) (n : Nat) : told t calls n =
    (if (trace t calls n).active ≠ none ∧ (trace t calls n).active ≠ (calls n).hit then [.leave]
      else []) ++ ((calls n).visit?.map Visit.event).toList :=
  (handle_spec (hcalls n) _).2

theorem exists_stays (n : Nat) : ∃ ended current,
    Stays (report {} calls n) (visits calls n) (trace {} calls n).active ended current := by
  induction n with
  | zero => exact ⟨[], [], stays_nil⟩
  | succ n ih =>
    obtain ⟨ended, current, hstays⟩ := ih
    rw [report_succ, visits_succ]
    exact hstays.handle (hcalls n)

end

/-- **What a tooltip reports.** Over every run of calls, on maps that were made by registering
markers, the reports come stay by stay: visits to one marker, and then that the pointer left; the
last stay goes on exactly as long as a marker is active. The active marker is the one that the last
call found. A call reports that the pointer left exactly if a marker was active and the call does
not find it again, and only then the visit that the call is. A visit is to the marker that was
registered first at the cell, and its report has that marker's cues. -/
theorem stays_law (calls : Nat → Call) (hcalls : ∀ n, (calls n).OnRegistered) :
    let trace := trace {} calls
    let told := told {} calls
    (∀ n, ∃ ended current,
      Stays (report {} calls n) (visits calls n) (trace n).active ended current) ∧
      (∀ n, (trace (n + 1)).active = (calls n).hit ∧
        (calls n).hit = (calls n).visit?.map (·.marker) ∧
        told n = (if (trace n).active ≠ none ∧ (trace n).active ≠ (calls n).hit then [.leave]
          else []) ++ ((calls n).visit?.map Visit.event).toList ∧
        ((trace n).active = none → (calls n).hit = none → told n = [])) ∧
      ∀ n m c ss, calls n = .move m c → m.Registers ss → ∀ v, (calls n).visit? = some v ↔
        v.cell = c ∧ ∃ s, Spot.FirstAt ss c v.marker s ∧ v.group = s.group := by
  intro trace told
  have htold := told_eq hcalls {}
  refine ⟨exists_stays hcalls, fun n => ?_, fun n m c ss hmove hss v => ?_⟩
  · refine ⟨trace_active hcalls {} n, Call.hit_eq (hcalls n), htold n, fun hnone hmiss => ?_⟩
    have hvisit : (calls n).visit? = none := by
      rwa [Call.hit_eq (hcalls n), Option.map_eq_none_iff] at hmiss
    have hquiet := htold n
    rwa [if_neg fun hchange => hchange.1 hnone, hvisit] at hquiet
  · rw [hmove]
    exact Call.visit?_eq_some_iff hss c v

/-- The map changes on the way, and the pointer goes from one marker to another and off the text. -/
theorem stays_over_two_maps :
    let g : Group := ⟨⟨.vfx, ['x'], {}, 0, 11, "[cue:vfx|x]".toList⟩, []⟩
    let h : Group := ⟨⟨.sound, ['y'], {}, 12, 25, "[cue:sound|y]".toList⟩, []⟩
    let line : RenderedLine := ⟨0, [.marker ['a'] g, .marker ['b'] h]⟩
    let whole : MarkerMap := .ofLines false [line]
    let again : MarkerMap := whole.clear.register true line
    let calls : Nat → Call := fun i =>
      [.move whole ⟨0, 0⟩, .move again ⟨0, 0⟩, .move again ⟨0, 1⟩].getD i .leave
    (∀ n, (calls n).OnRegistered) ∧
      told {} calls 2 = [.leave, .hover h.cues ⟨0, 1⟩] ∧ (trace {} calls 3).active = some 1 ∧
      told {} calls 3 = [.leave] ∧ told {} calls 4 = [] := by
  intro g h line whole again calls
  have hwhole : whole.Registers _ := .ofLines false [line]
  have hcalls : ∀ n, (calls n).OnRegistered := by
    rintro (_ | _ | _ | n)
    · exact ⟨_, hwhole⟩
    · exact ⟨_, hwhole.clear.register true line⟩
    · exact ⟨_, hwhole.clear.register true line⟩
    · exact trivial
  obtain ⟨-, hrun, -⟩ := stays_law calls hcalls
  have hfirst : (calls 1).hit = some 0 := by decide +kernel
  have hsecond : (calls 2).hit = some 1 := by decide +kernel
  have hvisit : (calls 2).visit? = some ⟨1, h, ⟨0, 1⟩⟩ := by decide +kernel
  refine ⟨hcalls, ?_, (hrun 2).1.trans hsecond, ?_, ?_⟩
  · rw [(hrun 2).2.2.1, (hrun 1).1, hfirst, hsecond, hvisit]
    rfl
  · rw [(hrun 3).2.2.1, (hrun 2).1, hsecond]
    rfl
  · exact (hrun 4).2.2.2 (hrun 3).1 rfl

end CuedProse.Tooltip
