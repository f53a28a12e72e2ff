import CuedProse.Glyph.Columns
import CuedProse.Line.Fragment

/-!
# Where the markers are

A marker map says which cells of the screen each marker covers, so that a pointer over a cell finds
the cues of the marker there. Markers are numbered in the order in which they were registered.
-/
namespace CuedProse

/-- A cell of the screen: a line of the chapter and a column in it. -/
structure Cell where
  line : Nat
  column : Nat
  deriving DecidableEq, Repr

/-- The cells that a marker covers, from column `first` up to column `stop` of a line. -/
structure Region where
  line : Nat
  first : Nat
  stop : Nat
  /-- The number of the marker. -/
  marker : Nat
  deriving DecidableEq, Repr

def Region.covers (r : Region) (c : Cell) : Bool :=
  decide (r.line = c.line) && decide (r.first ≤ c.column) && decide (c.column < r.stop)

structure MarkerMap where
  regions : List Region := []
  /-- The groups of the markers; marker `i` has the `i`-th one. -/
  groups : List Group := []
  deriving DecidableEq, Repr

namespace MarkerMap

/-- Registers the markers among fragments that start at `column`. A marker covers at least one
cell, even if its glyph has no width (spec §G). -/
def registerFrom (eastAsian : Bool) (line column : Nat) (m : MarkerMap) :
    List Fragment → MarkerMap
  | [] => m
  | f :: rest =>
    let width := Glyph.columns eastAsian f.text
    let m := match f with
      | .prose _ => m
      | .marker _ group =>
        { regions := m.regions ++ [⟨line, column, column + max width 1, m.groups.length⟩]
          groups := m.groups ++ [group] }
    registerFrom eastAsian line (column + width) m rest

def register (eastAsian : Bool) (m : MarkerMap) (l : RenderedLine) : MarkerMap :=
  registerFrom eastAsian l.line 0 m l.fragments

def ofLines (eastAsian : Bool) (lines : List RenderedLine) : MarkerMap :=
  lines.foldl (register eastAsian) {}

def clear (_ : MarkerMap) : MarkerMap := {}

/-- The number of the marker at a cell: that of the first region that covers it. -/
def markerAt? (m : MarkerMap) (c : Cell) : Option Nat :=
  (m.regions.find? (·.covers c)).map (·.marker)

def group? (m : MarkerMap) (marker : Nat) : Option Group := m.groups[marker]?

def size (m : MarkerMap) : Nat := m.regions.length

end MarkerMap

end CuedProse
