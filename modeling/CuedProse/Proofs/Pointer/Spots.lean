import CuedProse.Pointer.MarkerMap

/-!
# Markers in the order of registration

A marker map keeps its regions and its groups in two lists. They belong together: a map lists the
markers registered since it was last empty, and their numbers are their places in that list.

* `Spot`: where a line shows a marker, and for which group.
* `Registers`: how a map was made, and the markers registered in it. `Registers.lists` is the
  invariant of its two lists.
* `Lists.markerAt?_eq_some_iff`: the marker at a cell is the first registered one that covers it.
* `Lists.group?_eq`: its group is the one it was registered with.
-/
namespace CuedProse

/-- A marker on the screen. -/
structure Spot where
  line : Nat
  /-- The column at which its glyph begins. -/
  column : Nat
  /-- The columns that its glyph takes. -/
  width : Nat
  group : Group
  deriving DecidableEq, Repr

namespace Spot

def region (s : Spot) (i : Nat) : Region := ⟨s.line, s.column, s.column + max s.width 1, i⟩

/-- The marker is at a cell: its glyph covers it, or stands there without any width. -/
def Covers (s : Spot) (c : Cell) : Prop :=
  s.line = c.line ∧ s.column ≤ c.column ∧ c.column < s.column + max s.width 1

theorem covers_region (s : Spot) (i : Nat) (c : Cell) :
    (s.region i).covers c = true ↔ s.Covers c := by
  unfold region Region.covers Covers
  simp [and_assoc]

/-- Of `spots`, the one numbered `i` is the first at a cell. -/
def FirstAt (spots : List Spot) (c : Cell) (i : Nat) (s : Spot) : Prop :=
  spots[i]? = some s ∧ s.Covers c ∧ ∀ t ∈ spots.take i, ¬ t.Covers c

end Spot

namespace MarkerMap

/-! ## The markers of a line -/

def columnsOf (eastAsian : Bool) : List Fragment → Nat
  | [] => 0
  | f :: rest => Glyph.columns eastAsian f.text + columnsOf eastAsian rest

/-- The markers among fragments that start at `column` of a line. -/
def spotsFrom (eastAsian : Bool) (line column : Nat) : List Fragment → List Spot
  | [] => []
  | .prose t :: rest => spotsFrom eastAsian line (column + Glyph.columns eastAsian t) rest
  | .marker glyph group :: rest =>
    ⟨line, column, Glyph.columns eastAsian glyph, group⟩ ::
      spotsFrom eastAsian line (column + Glyph.columns eastAsian glyph) rest

def spots (eastAsian : Bool) (l : RenderedLine) : List Spot :=
  spotsFrom eastAsian l.line 0 l.fragments

/-- How a map was made, and the markers registered in it since it was last empty. -/
inductive Registers : MarkerMap → List Spot → Prop where
  | empty : Registers {} []
  | ofLines (eastAsian : Bool) (lines : List RenderedLine) :
      Registers (ofLines eastAsian lines) (lines.flatMap (spots eastAsian))
  | register {m : MarkerMap} {ss : List Spot} (eastAsian : Bool) (l : RenderedLine) :
      Registers m ss → Registers (m.register eastAsian l) (ss ++ spots eastAsian l)
  | clear {m : MarkerMap} {ss : List Spot} : Registers m ss → Registers m.clear []

/-! ## The two lists of a map -/

/-- The regions and the groups of the map are those of the markers `ss`, numbered in order. -/
structure Lists (m : MarkerMap) (ss : List Spot) : Prop where
  regions : m.regions = ss.mapIdx fun i s => s.region i
  groups : m.groups = ss.map (·.group)

theorem lists_empty : Lists {} [] := ⟨rfl, rfl⟩

section
variable {m : MarkerMap} {ss : List Spot}

theorem Lists.push (h : Lists m ss) (s : Spot) :
    Lists ⟨m.regions ++ [s.region m.groups.length], m.groups ++ [s.group]⟩ (ss ++ [s]) := by
  have hlength : m.groups.length = ss.length := by rw [h.groups, List.length_map]
  refine ⟨?_, ?_⟩
  · rw [List.mapIdx_concat, h.regions, hlength]
  · rw [List.map_append, h.groups, List.map_singleton]

theorem Lists.registerFrom (h : Lists m ss) (eastAsian : Bool) (line column : Nat)
    (fragments : List Fragment) :
    Lists (registerFrom eastAsian line column m fragments)
      (ss ++ spotsFrom eastAsian line column fragments) := by
  induction fragments generalizing m ss column with
  | nil =>
    rw [spotsFrom, List.append_nil]
    exact h
  | cons f rest ih =>
    cases f with
    | prose t => exact ih h _
    | marker glyph group =>
      have hpush := ih (h.push ⟨line, column, Glyph.columns eastAsian glyph, group⟩)
        (column + Glyph.columns eastAsian glyph)
      rwa [List.append_assoc] at hpush

theorem Lists.register (h : Lists m ss) (eastAsian : Bool) (l : RenderedLine) :
    Lists (m.register eastAsian l) (ss ++ spots eastAsian l) :=
  h.registerFrom eastAsian l.line 0 l.fragments

theorem Lists.registerAll (h : Lists m ss) (eastAsian : Bool) (lines : List RenderedLine) :
    Lists (lines.foldl (MarkerMap.register eastAsian) m)
      (ss ++ lines.flatMap (spots eastAsian)) := by
  induction lines generalizing m ss with
  | nil => simpa using h
  | cons l lines ih =>
    have hrest := ih (h.register eastAsian l)
    rwa [List.append_assoc] at hrest

theorem lists_ofLines (eastAsian : Bool) (lines : List RenderedLine) :
    Lists (ofLines eastAsian lines) (lines.flatMap (spots eastAsian)) :=
  lists_empty.registerAll eastAsian lines

/-- However a map was made, its lists are those of the markers registered in it. -/
theorem Registers.lists (h : Registers m ss) : Lists m ss := by
  induction h with
  | empty => exact lists_empty
  | ofLines eastAsian lines => exact lists_ofLines eastAsian lines
  | register eastAsian l _ ih => exact ih.register eastAsian l
  | clear _ _ => exact lists_empty

namespace Lists

theorem size_eq (h : Lists m ss) : m.size = ss.length := by
  rw [size, h.regions, List.length_mapIdx]

theorem group?_eq (h : Lists m ss) (i : Nat) : m.group? i = ss[i]?.map (·.group) := by
  rw [group?, h.groups, List.getElem?_map]

/-- The marker at a cell is the first registered one that covers it. -/
theorem markerAt?_eq_some_iff (h : Lists m ss) (c : Cell) (i : Nat) :
    m.markerAt? c = some i ↔ ∃ s, Spot.FirstAt ss c i s := by
  simp only [markerAt?, Option.map_eq_some_iff, List.find?_eq_some_iff_getElem, h.regions,
    List.length_mapIdx, List.getElem_mapIdx, Bool.not_eq_true', ← Bool.not_eq_true,
    Spot.covers_region, Spot.FirstAt, List.getElem?_eq_some_iff, List.mem_take_iff_getElem]
  constructor
  · rintro ⟨r, ⟨hcovers, k, hk, rfl, hfirst⟩, rfl⟩
    refine ⟨ss[k], ⟨hk, rfl⟩, (Spot.covers_region _ _ c).mp hcovers, ?_⟩
    rintro t ⟨j, hj, rfl⟩
    exact hfirst j (Nat.lt_of_lt_of_le hj (Nat.min_le_left ..))
  · rintro ⟨s, ⟨hi, rfl⟩, hcovers, hfirst⟩
    have hregion : (ss[i].region i).covers c = true := (Spot.covers_region _ _ c).mpr hcovers
    exact ⟨ss[i].region i, ⟨hregion, i, hi, rfl, fun j hj => hfirst _ ⟨j, by omega, rfl⟩⟩, rfl⟩

end Lists

end

end MarkerMap

end CuedProse
