import CuedProse.Pointer.MarkerMap

/-!
# Tooltips

The tooltip follows the pointer. It reports every move over a marker, and that the pointer left a
marker before anything else is reported.
-/
namespace CuedProse

inductive TooltipEvent where
  /-- The pointer is at a cell of a marker with these cues. -/
  | hover (cues : List Cue) (cell : Cell)
  /-- The pointer is no longer over the marker it was over. -/
  | leave
  deriving DecidableEq, Repr

/-- The marker that the pointer is over. -/
structure Tooltip where
  active : Option Nat := none
  deriving DecidableEq, Repr

namespace Tooltip

/-- The pointer leaves the text (spec §6, §G). -/
def leave (t : Tooltip) : Tooltip × List TooltipEvent :=
  (⟨none⟩, if t.active.isSome then [.leave] else [])

/-- The pointer moves to a cell (spec §6, §G). -/
def move (t : Tooltip) (m : MarkerMap) (c : Cell) : Tooltip × List TooltipEvent :=
  let hit := m.markerAt? c
  let (t, left) := if t.active = hit then (t, []) else t.leave
  match hit.bind fun i => (m.group? i).map fun g => (i, g) with
  | some (i, g) => (⟨some i⟩, left ++ [.hover g.cues c])
  | none => (t, left)

end Tooltip

end CuedProse
