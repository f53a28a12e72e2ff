import CuedProse.Proofs.Text.Access
import CuedProse.Proofs.Visible.Places
import CuedProse.Proofs.Visible.Stretches

/-!
# Looking offsets up in tables

Offsets are looked up by halving the stretches or the lines, and what is found is taken a part of.
The search needs a table in order, what it finds must be there, and no difference may be below zero.
All this holds of the stretches that any spans leave free, and of the lines of any text.

* `ofSpans?`, `toRaw?`, `toVisible?`, `place?`: building and looking up with every access checked.
* `Stretch.InOrder`, `inOrder_ofSpans`: the stretches end one behind the other.
* `ofSpans?_eq_some`, `toRaw?_eq_some`, `toVisible?_eq_some`: every stretch is measured, and every
  offset is looked up.
* `place?_eq_some`: the line that is found has an entry in both tables, and begins at the offset or
  before it.
-/
namespace CuedProse

/-! ## Stretches -/

namespace Stretch

/-- The number of characters, if the stretch does not end before it begins. -/
def length? (s : Stretch) : Option Nat := sub? s.stop s.start

/-- Stretches that end one behind the other, and not before they begin. -/
structure InOrder (l : List Stretch) : Prop where
  start_le_stop : ∀ s ∈ l, s.start ≤ s.stop
  apart : l.Pairwise fun s t => s.stop ≤ t.stop ∧ s.visibleStop ≤ t.visibleStop

theorem InOrder.length?_eq_some {l : List Stretch} (h : InOrder l) {s : Stretch} (hs : s ∈ l) :
    s.length? = some s.length :=
  sub?_of_le (h.start_le_stop s hs)

end Stretch

namespace Projection

/-- `gaps`, with every stretch measured where it is found. -/
def gaps? (total : Nat) (cursor before : Nat) : List Span → Option (List Stretch)
  | [] => some (if cursor < total then [⟨cursor, total, before⟩] else [])
  | s :: rest =>
    if cursor < s.start then do
      let count ← sub? s.start cursor
      let stretches ← gaps? total s.stop (before + count) rest
      return ⟨cursor, s.start, before⟩ :: stretches
    else gaps? total (max cursor s.stop) before rest

/-- The number of characters in some stretches, each of which is measured. -/
def visibleLength? : List Stretch → Option Nat
  | [] => some 0
  | s :: rest => do
    let count ← s.length?
    let others ← visibleLength? rest
    return count + others

/-- `ofSpans`, with every stretch measured. -/
def ofSpans? (total : Nat) (spans : List Span) : Option Projection := do
  let free ← gaps? total 0 0 (Span.union (spans.map (Span.clamp total)))
  let totalVisible ← visibleLength? free
  return { stretches := if free = [] then [⟨total, total, 0⟩] else free
           totalVisible, totalRaw := total }

/-- `toRaw`, found by halving the stretches. -/
def toRaw? (p : Projection) (v : Nat) : Option Nat :=
  if p.totalVisible ≤ v then some p.totalRaw
  else do
    let i ← partitionPoint? (fun s => s.length?.map fun n => decide (s.before + n ≤ v)) p.stretches
    match p.stretches[i]? with
    | none => return p.totalRaw
    | some s =>
      let inside ← sub? v s.before
      clamp? (s.start + inside) s.start s.stop

/-- `toVisible`, found by halving the stretches. -/
def toVisible? (p : Projection) (r : Nat) : Option Nat := do
  let i ← partitionPoint? (fun s => some (decide (s.stop ≤ r))) p.stretches
  match p.stretches[i]? with
  | none => return p.totalVisible
  | some s =>
    if s.start ≤ r then
      let inside ← sub? r s.start
      return s.before + inside
    else return s.before

section
variable {free : Nat → Bool} {total cursor before : Nat} {l : List Stretch}

theorem Fill.le_before (h : Fill free total cursor before l) {s : Stretch} (hs : s ∈ l) :
    before ≤ s.before := by
  induction l generalizing cursor before with
  | nil => cases hs
  | cons t l ih =>
    obtain ⟨⟨-, -, -, hbefore⟩, -, -, -, hrest⟩ := h
    rcases List.mem_cons.mp hs with heq | hs
    · rw [heq, hbefore]
    · exact Nat.le_trans (Nat.le_add_right ..) (ih hrest hs)

theorem Fill.inOrder (h : Fill free total cursor before l) : Stretch.InOrder l := by
  refine ⟨fun s hs => Nat.le_of_lt (h.start_bounds hs).2, ?_⟩
  induction l generalizing cursor before with
  | nil => exact .nil
  | cons s l ih =>
    obtain ⟨⟨-, -, -, hbefore⟩, -, -, -, hrest⟩ := h
    refine .cons (fun t ht => ?_) (ih hrest)
    obtain ⟨hstart, hstop⟩ := hrest.start_bounds ht
    have hbehind := hrest.le_before ht
    simp only [Stretch.visibleStop, Stretch.length] at hbehind ⊢
    omega

/-- The first stretch that ends behind the visible offset `v` begins at it or before it. -/
theorem Fill.before_le (h : Fill free total cursor before l) {v : Nat} (hv : before ≤ v)
    {s : Stretch} (hs : l.find? (fun s => v < s.visibleStop) = some s) : s.before ≤ v := by
  induction l generalizing cursor before with
  | nil => cases hs
  | cons t l ih =>
    obtain ⟨⟨-, -, -, hbefore⟩, -, -, -, hrest⟩ := h
    by_cases ht : v < t.visibleStop
    · rw [List.find?_cons_of_pos (by simpa using ht)] at hs
      rw [← Option.some.inj hs, hbefore]
      exact hv
    · rw [List.find?_cons_of_neg (by simpa using ht)] at hs
      refine ih hrest ?_ hs
      rw [← hbefore]
      exact Nat.le_of_not_lt ht

end

section
variable (total : Nat) (spans : List Span)

theorem inOrder_ofSpans : Stretch.InOrder (ofSpans total spans).stretches := by
  rcases stretches_cases total spans with ⟨-, hend⟩ | ⟨-, hfill⟩
  · rw [hend]
    exact ⟨by simp, List.pairwise_singleton ..⟩
  · exact hfill.inOrder

theorem gaps?_eq_some (cursor before : Nat) (l : List Span) :
    gaps? total cursor before l = some (gaps total cursor before l) := by
  induction l generalizing cursor before with
  | nil => rfl
  | cons s l ih =>
    unfold gaps? gaps
    by_cases hs : cursor < s.start
    · simp only [if_pos hs, sub?_of_le (Nat.le_of_lt hs), bind, Option.bind_some, ih]
      rfl
    · rw [if_neg hs, if_neg hs, ih]

theorem visibleLength?_eq_some {l : List Stretch} (h : ∀ s ∈ l, s.length? = some s.length) :
    visibleLength? l = some (visibleLength l) := by
  induction l with
  | nil => rfl
  | cons s l ih =>
    obtain ⟨hs, hl⟩ := List.forall_mem_cons.mp h
    rw [visibleLength?, hs, ih hl]
    rfl

theorem ofSpans?_eq_some : ofSpans? total spans = some (ofSpans total spans) := by
  have horder := (fill_ofSpans total spans).inOrder
  rw [ofSpans?, gaps?_eq_some]
  simp only [bind, Option.bind_some, visibleLength?_eq_some fun s hs => horder.length?_eq_some hs]
  rfl

theorem before_le {v : Nat} {s : Stretch}
    (hs : (ofSpans total spans).stretches.find? (fun s => v < s.visibleStop) = some s) :
    s.before ≤ v := by
  rcases stretches_cases total spans with ⟨-, hend⟩ | ⟨-, hfill⟩
  · have hmem := List.mem_of_find?_eq_some hs
    rw [hend] at hmem
    rw [List.mem_singleton.mp hmem]
    exact Nat.zero_le v
  · exact hfill.before_le (Nat.zero_le v) hs

theorem toRaw?_eq_some (v : Nat) :
    (ofSpans total spans).toRaw? v = some ((ofSpans total spans).toRaw v) := by
  have horder := inOrder_ofSpans total spans
  have hsearch := partitionPoint?_eq_some (p := fun s : Stretch => decide (s.visibleStop ≤ v))
    (f := fun s => s.length?.map fun n => decide (s.before + n ≤ v))
    (fun s hs => by rw [horder.length?_eq_some hs]; rfl)
    (horder.apart.imp fun h => by simpa using Nat.le_trans h.2)
  have hfind := getElem?_takeWhile_length (p := fun s : Stretch => decide (s.visibleStop ≤ v))
    (q := fun s => decide (v < s.visibleStop)) (fun s => by rw [← decide_not]; simp)
    (ofSpans total spans).stretches
  unfold toRaw? toRaw
  split
  · rfl
  · rw [hsearch]
    simp only [bind, Option.bind_some, hfind]
    cases hs : (ofSpans total spans).stretches.find? (fun s => v < s.visibleStop) with
    | none => rfl
    | some s =>
      have hstop : v < s.visibleStop := by simpa using List.find?_some hs
      have hbefore := before_le total spans hs
      simp only [Stretch.visibleStop, Stretch.length] at hstop
      simp only [sub?_of_le hbefore, Option.bind_some]
      exact clamp?_of_mem (Nat.le_add_right ..) (by omega)

theorem toVisible?_eq_some (r : Nat) :
    (ofSpans total spans).toVisible? r = some ((ofSpans total spans).toVisible r) := by
  have horder := inOrder_ofSpans total spans
  have hsearch := partitionPoint?_eq_some (p := fun s : Stretch => decide (s.stop ≤ r))
    (f := fun s => some (decide (s.stop ≤ r))) (fun _ _ => rfl)
    (horder.apart.imp fun h => by simpa using Nat.le_trans h.1)
  have hfind := getElem?_takeWhile_length (p := fun s : Stretch => decide (s.stop ≤ r))
    (q := fun s => decide (r < s.stop)) (fun s => by rw [← decide_not]; simp)
    (ofSpans total spans).stretches
  rw [toVisible?, hsearch, toVisible]
  simp only [bind, Option.bind_some, hfind]
  cases (ofSpans total spans).stretches.find? (fun s => r < s.stop) with
  | none => rfl
  | some s =>
    by_cases hstart : s.start ≤ r
    · simp only [if_pos hstart, sub?_of_le hstart]
      rfl
    · simp only [if_neg hstart]
      rfl

end

end Projection

/-! ## Lines -/

namespace LineTable

/-- `place`, found by halving the starts of the lines and looked up in two tables. -/
def place? (ls : LineTable) (raw : Nat) : Option Place :=
  let starts := ls.entries.map (·.start)
  let lengths := ls.entries.map (·.length)
  let raw := min raw ls.totalRaw
  if starts.isEmpty then some ⟨0, 0⟩
  else do
    let found ← partitionPoint? (fun start => some (decide (start ≤ raw))) starts
    let line := found - 1
    let start ← starts[line]?
    let length ← lengths[line]?
    let char ← sub? raw start
    return ⟨line, min char length⟩

theorem entriesFrom_ordered (start : Nat) (lines : List Text) :
    (∀ e ∈ entriesFrom start lines, start ≤ e.start) ∧
      (entriesFrom start lines).Pairwise fun e f => e.start ≤ f.start := by
  induction lines generalizing start with
  | nil => exact ⟨by simp [entriesFrom], .nil⟩
  | cons l lines ih =>
    obtain ⟨hbehind, hordered⟩ := ih (start + l.length + 1)
    have hnext : ∀ e ∈ entriesFrom (start + l.length + 1) lines, start ≤ e.start := by
      intro e he
      have := hbehind e he
      omega
    exact ⟨List.forall_mem_cons.mpr ⟨Nat.le_refl _, hnext⟩, .cons hnext hordered⟩

/-- The line of an offset is the one in front of the first that starts behind it. -/
theorem line_place_eq (t : Text) (raw : Nat) :
    ((ofText t).place raw).line =
      ((ofText t).entries.takeWhile fun e => e.start ≤ min raw t.length).length - 1 := by
  unfold place
  dsimp only
  split
  · rfl
  · rename_i hnone
    have hle := (List.takeWhile_sublist (l := (ofText t).entries)
      fun e => decide (e.start ≤ min raw (ofText t).totalRaw)).length_le
    have hpos := Text.lines_pos t
    rw [← size_ofText] at hpos
    rw [List.getElem?_eq_none_iff] at hnone
    omega

/-- Every offset has its place in the lines of a text. -/
theorem place?_eq_some (t : Text) (raw : Nat) :
    (ofText t).place? raw = some ((ofText t).place raw) := by
  have hordered : ((ofText t).entries.map (·.start)).Pairwise fun a b =>
      decide (b ≤ min raw t.length) = true → decide (a ≤ min raw t.length) = true := by
    rw [List.pairwise_map]
    refine (entriesFrom_ordered 0 (Text.lines t)).2.imp fun h => ?_
    simp only [decide_eq_true_eq]
    exact Nat.le_trans h
  have hsearch : partitionPoint? (fun start => some (decide (start ≤ min raw t.length)))
      ((ofText t).entries.map (·.start)) =
        some ((ofText t).entries.takeWhile fun e => e.start ≤ min raw t.length).length := by
    rw [partitionPoint?_eq_some (fun _ _ => rfl) hordered, List.takeWhile_map, List.length_map]
    rfl
  have hsome : ((ofText t).entries.map (·.start)).isEmpty = false := by
    have hpos := Text.lines_pos t
    rw [← size_ofText, ← List.length_map (·.start)] at hpos
    exact List.isEmpty_eq_false_iff.mpr (List.ne_nil_of_length_pos hpos)
  obtain ⟨hline, hstart, -, hchar⟩ := place_spec t raw
  have hentry := entries_getElem? hline
  rw [start_eq hline] at hstart hchar
  rw [length_eq hline] at hchar
  unfold place?
  simp only [hsome, Bool.false_eq_true, if_false, show (ofText t).totalRaw = t.length from rfl,
    hsearch, bind, Option.bind_some, ← line_place_eq, List.getElem?_map, hentry, Option.map_some,
    sub?_of_le hstart, ← hchar]
  rfl

end LineTable

end CuedProse
