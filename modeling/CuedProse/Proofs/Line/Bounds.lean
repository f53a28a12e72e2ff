import CuedProse.Proofs.Glyph.Clusters
import CuedProse.Proofs.Line.Parted
import CuedProse.Proofs.Markup.Bounds

/-!
# Rendering in bytes

Rendering by bytes looks the offsets of each group up in a table of byte offsets, cuts the prose
before a group out from where the group before it ended, and cuts the prose after a group at the
bytes of its first letter. None of this fails, whatever the line and whatever waits when it begins:
the groups of a line stand in it, one behind the other.

* `piecesFrom?`, `Builder.addProse?`, `render?`, `renderAll?`: rendering with every access checked.
* `piecesFrom?_eq_some`: groups in order leave pieces that can be cut out.
* `addProse?_eq_some`: a letter can be cut out of the prose it is found in.
* `render?_eq_some`, `renderAll?_eq_some`: so every line is rendered.
-/
namespace CuedProse

open Text

namespace Markup

/-! ## Pieces -/

/-- The pieces of `t` from byte offset `cursor` on. The byte offsets of the ordered `groups` are
looked up in a table. -/
def piecesFrom? (t : Text) (table : List Nat) (cursor : Nat) : List Group → Option (List Piece)
  | [] => do
    let (_, text) ← cutAt? cursor t
    return [.prose text]
  | g :: groups => do
    let start ← table[g.start]?
    let stop ← table[g.stop]?
    let text ← byteSlice? t cursor start
    let pieces ← piecesFrom? t table stop groups
    return .prose text :: .cues g :: pieces

def pieces? (t : Text) : Option (List Piece) := do
  let cues ← cues? t
  piecesFrom? t (offsets t) 0 (Group.gather t cues)

/-- Groups that stand in a text, one behind the other, leave pieces that can be cut out. -/
theorem piecesFrom?_eq_some {t : Text} {groups : List Group} {cursor : Nat}
    (hcursor : ∀ g ∈ groups, cursor ≤ g.start)
    (hinside : ∀ g ∈ groups, g.start ≤ g.stop ∧ g.stop ≤ t.length)
    (hordered : groups.Pairwise fun g h => g.stop ≤ h.start) :
    piecesFrom? t (offsets t) (byteLength (t.take cursor)) groups =
      some (piecesFrom t cursor groups) := by
  induction groups generalizing cursor with
  | nil =>
    have hcut : cutAt? (byteLength (t.take cursor)) t = some (t.take cursor, t.drop cursor) :=
      cutAt?_eq_some_iff.mpr ⟨(List.take_append_drop cursor t).symm, rfl⟩
    rw [piecesFrom?, hcut]
    rfl
  | cons g groups ih =>
    obtain ⟨hg, hgroups⟩ := List.forall_mem_cons.mp hinside
    obtain ⟨hbehind, hrest⟩ := List.pairwise_cons.mp hordered
    have hstart := offsets_getElem? t (Nat.le_trans hg.1 hg.2)
    have hstop := offsets_getElem? t hg.2
    have hprose := byteSlice?_byteLength t (hcursor g (List.mem_cons_self ..))
    rw [piecesFrom?, hstart, hstop]
    simp only [bind, Option.bind_some, hprose, ih hbehind hgroups hrest]
    rfl

theorem pieces?_eq_some (t : Text) : pieces? t = some (pieces t) := by
  have hpieces := piecesFrom?_eq_some (fun _ _ => Nat.zero_le _) (fun _ h => group_inside h)
    (groups_ordered t)
  rw [pieces?, cues?_eq_some]
  exact hpieces

end Markup

namespace Line

open Glyph

/-! ## Building a line -/

namespace Builder

/-- `dropDoubled`, with the space cut off by its bytes. -/
def dropDoubled? (b : Builder) (t : Text) : Option Text :=
  if b.afterGroup && endsWithSpace b.built then
    match t with
    | c :: _ => if isHorizontalSpace c then (cutAt? c.utf8Size t).map (·.2) else some t
    | [] => some []
  else some t

/-- `addProse`, with the text cut at the bytes where its first letter begins and ends. -/
def addProse? (b : Builder) (t : Text) : Option Builder := do
  let t ← b.dropDoubled? t
  match b.pending with
  | none => return { b with built := Line.addProse b.built t }
  | some g =>
    match splitAtLetter? t with
    | none => return { b with built := Line.addProse b.built t }
    | some s =>
      let start := byteLength s.before
      let (before, _) ← cutAt? start t
      let (_, after) ← cutAt? (start + byteLength s.glyph) t
      return { b with
        pending := none
        built := Line.addProse (.marker s.glyph g :: Line.addProse b.built before) after }

def add? (start : Nat) (b : Builder) : Markup.Piece → Option Builder
  | .prose t => b.addProse? t
  | .cues g => some (b.addGroup (g.shift start))

variable {b : Builder} {t : Text}

theorem dropDoubled?_eq_some (b : Builder) (t : Text) : b.dropDoubled? t = some (b.dropDoubled t) := by
  unfold dropDoubled? dropDoubled
  split
  · cases t with
    | nil => rfl
    | cons c t =>
      have hcut : cutAt? c.utf8Size (c :: t) = some ([c], t) :=
        cutAt?_eq_some_iff.mpr ⟨rfl, rfl⟩
      by_cases hc : isHorizontalSpace c = true <;> simp [hc, hcut]
  · rfl

theorem addProse?_eq_some (b : Builder) (t : Text) : b.addProse? t = some (b.addProse t) := by
  rw [addProse?, dropDoubled?_eq_some, addProse]
  generalize b.dropDoubled t = t
  cases b.pending with
  | none => rfl
  | some g =>
    cases hsplit : splitAtLetter? t with
    | none => simp [hsplit]
    | some s =>
      obtain ⟨ht, -⟩ := splitAtLetter?_spec hsplit
      have hbefore : cutAt? (byteLength s.before) t = some (s.before, s.glyph ++ s.after) :=
        cutAt?_eq_some_iff.mpr ⟨by rw [ht, List.append_assoc], rfl⟩
      have hafter : cutAt? (byteLength s.before + byteLength s.glyph) t =
          some (s.before ++ s.glyph, s.after) :=
        cutAt?_eq_some_iff.mpr ⟨ht, (byteLength_append ..).symm⟩
      simp only [bind, Option.bind_some, hsplit, hbefore, hafter]
      rfl

theorem add?_eq_some (start : Nat) (b : Builder) (p : Markup.Piece) :
    b.add? start p = some (b.add start p) := by
  cases p with
  | prose t => exact addProse?_eq_some b t
  | cues g => rfl

theorem foldlM_add? (start : Nat) (b : Builder) (pieces : List Markup.Piece) :
    pieces.foldlM (add? start) b = some (pieces.foldl (add start) b) := by
  induction pieces generalizing b with
  | nil => rfl
  | cons p pieces ih =>
    rw [List.foldlM_cons, add?_eq_some]
    exact ih _

end Builder

/-! ## Lines -/

/-- The text of a slice without unfinished markup, cut off by its bytes. -/
def Slice.shown? (s : Slice) : Option Text :=
  if s.cut then Markup.hideUnfinished? s.text else some s.text

def render? (pending : Option Group) (s : Slice) : Option (RenderedLine × Option Group) := do
  let shown ← s.shown?
  let pieces ← Markup.pieces? shown
  let b ← pieces.foldlM (Builder.add? s.start) { pending }
  return (⟨s.line, b.built.reverse⟩, b.pending)

def renderAll? (pending : Option Group) :
    List Slice → Option (List RenderedLine × Option Group)
  | [] => some ([], pending)
  | s :: rest => do
    let (line, pending) ← render? pending s
    let (lines, pending) ← renderAll? pending rest
    return (line :: lines, pending)

theorem Slice.shown?_eq_some (s : Slice) : s.shown? = some s.shown := by
  unfold shown? shown
  split
  · exact Markup.hideUnfinished?_eq_some s.text
  · rfl

theorem render?_eq_some (pending : Option Group) (s : Slice) :
    render? pending s = some (render pending s) := by
  rw [render?, s.shown?_eq_some]
  simp only [bind, Option.bind_some, Markup.pieces?_eq_some, Builder.foldlM_add?]
  rfl

theorem renderAll?_eq_some (pending : Option Group) (slices : List Slice) :
    renderAll? pending slices = some (renderAll pending slices) := by
  induction slices generalizing pending with
  | nil => rfl
  | cons s rest ih =>
    rw [renderAll?, render?_eq_some]
    simp only [bind, Option.bind_some, ih]
    rfl

end Line

end CuedProse
