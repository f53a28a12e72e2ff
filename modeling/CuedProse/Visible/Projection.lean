import CuedProse.Visible.Span

/-!
# Visible and raw offsets

A raw offset counts every character of a text, a visible one only those outside all cues. The
projection holds the stretches between the cues, each with the number of visible characters before
it, and turns offsets of either kind into the other.
-/
namespace CuedProse

/-- A maximal stretch without markup (spec §3, `NonCueSegment`). -/
structure Stretch where
  start : Nat
  stop : Nat
  /-- The visible characters before the stretch. -/
  before : Nat
  deriving DecidableEq, Repr

namespace Stretch

def length (s : Stretch) : Nat := s.stop - s.start

/-- The visible offset at which the stretch ends. -/
def visibleStop (s : Stretch) : Nat := s.before + s.length

end Stretch

/-- The visible part of a text of `totalRaw` characters. -/
structure Projection where
  stretches : List Stretch
  totalVisible : Nat
  totalRaw : Nat
  deriving DecidableEq, Repr

namespace Projection

/-- The stretches from `cursor` to `total` that the ordered, disjoint `spans` leave free. -/
def gaps (total : Nat) (cursor before : Nat) : List Span → List Stretch
  | [] => if cursor < total then [⟨cursor, total, before⟩] else []
  | s :: rest =>
    if cursor < s.start then
      ⟨cursor, s.start, before⟩ :: gaps total s.stop (before + (s.start - cursor)) rest
    else gaps total (max cursor s.stop) before rest

def visibleLength : List Stretch → Nat
  | [] => 0
  | s :: rest => s.length + visibleLength rest

/-- The visible part of a text of `total` characters whose markup covers `spans`. The spans may
overlap and come in any order. A text without a visible character has one empty stretch at its
end (spec §4.2, §7). -/
def ofSpans (total : Nat) (spans : List Span) : Projection :=
  let free := gaps total 0 0 (Span.union (spans.map (Span.clamp total)))
  { stretches := if free = [] then [⟨total, total, 0⟩] else free
    totalVisible := visibleLength free
    totalRaw := total }

def identity (total : Nat) : Projection := ofSpans total []

/-- The raw offset of the `v`-th visible character. From the end of the visible text on it is the
end of the text, so trailing markup counts as reached once everything visible is (spec §4.2,
`visibleToRaw`). -/
def toRaw (p : Projection) (v : Nat) : Nat :=
  if p.totalVisible ≤ v then p.totalRaw
  else match p.stretches.find? (fun s => v < s.visibleStop) with
    | some s => s.start + (v - s.before)
    | none => p.totalRaw

/-- The number of visible characters before the raw offset `r` (spec §F). -/
def toVisible (p : Projection) (r : Nat) : Nat :=
  match p.stretches.find? (fun s => r < s.stop) with
  | some s => if s.start ≤ r then s.before + (r - s.start) else s.before
  | none => p.totalVisible

def isVisible (p : Projection) (r : Nat) : Bool :=
  match p.stretches.find? (fun s => r < s.stop) with
  | some s => decide (s.start ≤ r)
  | none => false

end Projection

end CuedProse
