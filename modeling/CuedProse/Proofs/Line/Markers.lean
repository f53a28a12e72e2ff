import CuedProse.Line.Anchor
import CuedProse.Proofs.Markup.Unfinished

/-!
# The markers of a line

A line is built from pieces, and a group of cues may wait for a letter over several of them. What
counts is that no cue is lost or doubled on the way and that they stay in order.

* `Group.gather_cues`: grouping keeps the list of cues.
* `Builder.seen`: the cues of the markers built so far and then those that wait; prose leaves it as
  it is (`seen_addProse`), a group is added at its end (`seen_addGroup`).
* `render_cues`, `renderAll_cues`: so what a rendering shows or passes on is what waited before it
  and then the cues of the lines.
* `renderAll_append`: lines can be rendered in two runs; the second one takes over what waits.
-/
namespace CuedProse

/-! ## Grouping -/

namespace Group

def allCues (groups : List Group) : List Cue := groups.flatMap cues

@[simp] theorem allCues_nil : allCues [] = [] := rfl

@[simp] theorem allCues_cons (g : Group) (groups : List Group) :
    allCues (g :: groups) = g.cues ++ allCues groups := rfl

@[simp] theorem allCues_append (groups groups' : List Group) :
    allCues (groups ++ groups') = allCues groups ++ allCues groups' := List.flatMap_append

@[simp] theorem cues_push (g : Group) (c : Cue) : (g.push c).cues = g.cues ++ [c] := rfl

@[simp] theorem cues_append (g h : Group) : (g.append h).cues = g.cues ++ h.cues := rfl

@[simp] theorem cues_shift (delta : Nat) (g : Group) :
    (g.shift delta).cues = g.cues.map (Cue.shift delta) := rfl

theorem gatherFrom_cues (r : GapReader) (g : Group) (cues : List Cue) :
    allCues (gatherFrom r g cues) = g.cues ++ cues := by
  induction cues generalizing r g with
  | nil => simp [gatherFrom]
  | cons c cues ih =>
    unfold gatherFrom
    split
    · split
      · rw [ih, cues_push, List.append_assoc, List.singleton_append]
      · rw [allCues_cons, ih]
        rfl
    · rw [allCues_cons, ih]
      rfl

theorem gather_cues (t : Text) (cues : List Cue) : allCues (gather t cues) = cues := by
  cases cues with
  | nil => rfl
  | cons c cues =>
    rw [gather, gatherFrom_cues]
    rfl

end Group

namespace Markup

def Piece.group? : Piece → Option Group
  | .prose _ => none
  | .cues g => some g

theorem piecesFrom_groups (t : Text) (cursor : Nat) (groups : List Group) :
    (piecesFrom t cursor groups).filterMap Piece.group? = groups := by
  induction groups generalizing cursor with
  | nil => rfl
  | cons g groups ih =>
    have hg : (Piece.cues g).group? = some g := rfl
    rw [piecesFrom, List.filterMap_cons_none rfl, List.filterMap_cons_some hg, ih]

theorem pieces_groups (t : Text) : (pieces t).filterMap Piece.group? = groups t :=
  piecesFrom_groups t 0 (groups t)

end Markup

/-! ## Building a line -/

namespace Line

theorem filterMap_addProse {α : Type} {f : Fragment → Option α} (hf : ∀ t, f (.prose t) = none)
    (built : List Fragment) (t : Text) : (addProse built t).filterMap f = built.filterMap f := by
  unfold addProse
  split <;> simp [hf]

theorem addProse_groups (built : List Fragment) (t : Text) :
    (addProse built t).filterMap Fragment.group? = built.filterMap Fragment.group? :=
  filterMap_addProse (fun _ => rfl) built t

def waiting (pending : Option Group) : List Cue := (pending.map Group.cues).getD []

namespace Builder

/-- The cues taken out of the line so far: those of the markers, and then those that wait. -/
def seen (b : Builder) : List Cue :=
  Group.allCues (b.built.reverse.filterMap Fragment.group?) ++ waiting b.pending

theorem seen_addProse (b : Builder) (t : Text) : (b.addProse t).seen = b.seen := by
  unfold addProse
  dsimp only
  generalize b.dropDoubled t = t
  cases hp : b.pending with
  | none => simp only [seen, List.filterMap_reverse, addProse_groups, hp]
  | some g =>
    cases hs : Glyph.splitAtLetter? t with
    | none => simp only [seen, List.filterMap_reverse, addProse_groups, hp]
    | some s =>
      -- the group that waited is now the one of the last marker
      have hmarker : ∀ built : List Fragment,
          (Fragment.marker s.glyph g :: built).filterMap Fragment.group? =
            g :: built.filterMap Fragment.group? := fun built => List.filterMap_cons_some rfl
      simp [seen, waiting, List.filterMap_reverse, addProse_groups, hp, hmarker]

theorem seen_addGroup (b : Builder) (g : Group) : (b.addGroup g).seen = b.seen ++ g.cues := by
  unfold addGroup
  cases hp : b.pending <;> simp [seen, waiting, hp]

/-- One step: a piece adds its cues, at their place in the chapter. -/
theorem seen_add (start : Nat) (b : Builder) (p : Markup.Piece) :
    (b.add start p).seen =
      b.seen ++ (Group.allCues p.group?.toList).map (Cue.shift start) := by
  cases p with
  | prose t =>
    rw [add, seen_addProse]
    simp [Markup.Piece.group?]
  | cues g =>
    rw [add, seen_addGroup]
    simp [Markup.Piece.group?]

theorem seen_foldl (start : Nat) (b : Builder) (pieces : List Markup.Piece) :
    (pieces.foldl (add start) b).seen =
      b.seen ++ (Group.allCues (pieces.filterMap Markup.Piece.group?)).map (Cue.shift start) := by
  induction pieces generalizing b with
  | nil => simp
  | cons p pieces ih =>
    rw [List.foldl_cons, ih, seen_add, List.append_assoc, ← List.map_append]
    cases p with
    | prose t => rfl
    | cues g =>
      have hg : (Markup.Piece.cues g).group? = some g := rfl
      rw [List.filterMap_cons_some hg, hg]
      simp

end Builder

/-! ## Rendering lines -/

theorem renderAll_length (pending : Option Group) (slices : List Slice) :
    (renderAll pending slices).1.length = slices.length := by
  induction slices generalizing pending with
  | nil => rfl
  | cons s slices ih => simp [renderAll, ih]

theorem renderAll_append (pending : Option Group) (a b : List Slice) :
    renderAll pending (a ++ b) =
      ((renderAll pending a).1 ++ (renderAll (renderAll pending a).2 b).1,
        (renderAll (renderAll pending a).2 b).2) := by
  induction a generalizing pending with
  | nil => rfl
  | cons s a ih => simp only [List.cons_append, renderAll, ih]

/-- The cues of what is revealed of a line, at their place in the chapter. -/
def Slice.cues (s : Slice) : List Cue := (Markup.cues s.text).map (Cue.shift s.start)

/-- Hiding unfinished markup hides no cue. -/
theorem Slice.cues_shown (s : Slice) : Markup.cues s.shown = Markup.cues s.text := by
  unfold shown
  split
  · exact Markup.cues_hideUnfinished s.text
  · rfl

theorem render_cues (pending : Option Group) (s : Slice) :
    Group.allCues (render pending s).1.groups ++ waiting (render pending s).2 =
      waiting pending ++ s.cues := by
  have hseen := Builder.seen_foldl s.start { pending } (Markup.pieces s.shown)
  rw [Markup.pieces_groups, Markup.groups, Group.gather_cues, s.cues_shown] at hseen
  exact hseen

/-- What lines show, and what waits behind them, is what waited before them and then the cues of
the lines. -/
theorem renderAll_cues (pending : Option Group) (slices : List Slice) :
    Group.allCues ((renderAll pending slices).1.flatMap RenderedLine.groups) ++
        waiting (renderAll pending slices).2 =
      waiting pending ++ slices.flatMap Slice.cues := by
  induction slices generalizing pending with
  | nil => simp [renderAll]
  | cons s slices ih =>
    have hline := render_cues pending s
    have hrest := ih (render pending s).2
    simp only [renderAll, List.flatMap_cons, Group.allCues_append, List.append_assoc]
    rw [hrest, ← List.append_assoc, hline, List.append_assoc]

end Line

end CuedProse
