/-!
# Spans

A span is a range of offsets, its end excluded. `Span.union` turns any list of spans into the
shortest list that covers the same offsets: in ascending order, none empty, none touching the next.
-/
namespace CuedProse

/-- The offsets from `start` up to `stop`. -/
structure Span where
  start : Nat
  stop : Nat
  deriving DecidableEq, Repr

namespace Span

def Covers (s : Span) (r : Nat) : Prop := s.start ≤ r ∧ r < s.stop

instance (s : Span) (r : Nat) : Decidable (s.Covers r) :=
  inferInstanceAs (Decidable (s.start ≤ r ∧ r < s.stop))

/-- Both ends cut back to `limit`. -/
def clamp (limit : Nat) (s : Span) : Span := ⟨min s.start limit, min s.stop limit⟩

/-- Puts `s` before the first span that does not start below it. -/
def insertByStart (s : Span) : List Span → List Span
  | [] => [s]
  | t :: rest => if s.start ≤ t.start then s :: t :: rest else t :: insertByStart s rest

/-- The spans ordered by their start; equal starts keep their order. -/
def sortByStart (spans : List Span) : List Span := spans.foldr insertByStart []

/-- Grows `current` over the spans that overlap or touch it, then goes on with the next one. The
spans are ordered by their start. -/
def fuse (current : Span) : List Span → List Span
  | [] => [current]
  | s :: rest =>
    if s.start ≤ current.stop then fuse ⟨current.start, max current.stop s.stop⟩ rest
    else current :: fuse s rest

/-- The maximal spans that cover what `spans` cover (spec §4.2). -/
def union (spans : List Span) : List Span :=
  match sortByStart (spans.filter fun s => s.start < s.stop) with
  | [] => []
  | s :: rest => fuse s rest

end Span

end CuedProse
