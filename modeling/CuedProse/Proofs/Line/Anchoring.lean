import CuedProse.Proofs.Line.Ink
import CuedProse.Proofs.Line.Markers
import CuedProse.Proofs.Line.Stream

/-!
# Cues go to the next letter

Lines are rendered one after the other, and the group that waits is passed on from line to line. To
say which letter a group meets, the lines are read once more, as a stream of cues and letters; the
builder comes along only to say which space is dropped. A letter is found again in a rendered line
by the ink in front of it, since tidying changes no ink.

* `stream`: what is read, and `anchors`: the markers of rendered lines.
* `stream_letters`: letters are read from left to right, so each stands at a place of its own.
* `stream_cues`: the cues read are those that wait at first and those of the lines.
* `Builder.settle_reads`: a piece of a line settles what is read in it; `settle_readPieces` is the
  same for a line and `settle_readLines` for all lines.
* `renderAll_anchoring`: so each cue ends at the first letter behind it, or waits.
-/
namespace CuedProse.Line

open Glyph

/-! ## Reading -/

/-- The letters among clusters that begin behind `before` characters of ink. -/
def lettersIn (line before : Nat) : List Text → List Letter
  | [] => []
  | g :: gs =>
    let rest := lettersIn line (before + (ink g).length) gs
    if isLetterCluster g then ⟨line, before, g⟩ :: rest else rest

/-- What is read in a piece that begins behind `before` characters of ink. Prose is cut into
clusters by itself, without the space that the builder drops. -/
def Builder.reads (b : Builder) (line start before : Nat) : Markup.Piece → List Token
  | .prose t => (lettersIn line before (clusters (b.dropDoubled t))).map .letter
  | .cues g => (g.shift start).cues.map .cue

def readPieces (line start : Nat) (b : Builder) (before : Nat) : List Markup.Piece → List Token
  | [] => []
  | p :: pieces =>
    b.reads line start before p ++
      readPieces line start (b.add start p) (before + (ink p.text).length) pieces

/-- What is read in what is shown of some lines, the first of which counts as `line`. -/
def readLines (line : Nat) (pending : Option Group) : List Slice → List Token
  | [] => []
  | s :: slices =>
    readPieces line s.start { pending } 0 (Markup.pieces s.shown) ++
      readLines (line + 1) (render pending s).2 slices

/-- The cues that wait, and then what is read in some lines. -/
def stream (pending : Option Group) (slices : List Slice) : List Token :=
  (waiting pending).map .cue ++ readLines 0 pending slices

/-- The markers among fragments that begin behind `before` characters of ink. -/
def anchorsIn (line before : Nat) : List Fragment → List Anchor
  | [] => []
  | .prose t :: rest => anchorsIn line (before + (ink t).length) rest
  | .marker glyph g :: rest =>
    ⟨⟨line, before, glyph⟩, g.cues⟩ :: anchorsIn line (before + (ink glyph).length) rest

/-- The markers of some lines, the first of which counts as `line`. -/
def anchors (line : Nat) : List RenderedLine → List Anchor
  | [] => []
  | l :: lines => anchorsIn line 0 l.fragments ++ anchors (line + 1) lines

/-! ## Letters -/

theorem ink_pos_of_isLetterCluster {g : Text} (h : isLetterCluster g = true) :
    0 < (ink g).length := by
  obtain ⟨c, rest, hcons, hletter⟩ := isLetterCluster_eq_true.mp h
  simp [hcons, ink_cons_of_isLetter hletter]

theorem lettersIn_append (line before : Nat) (gs hs : List Text) :
    lettersIn line before (gs ++ hs) =
      lettersIn line before gs ++ lettersIn line (before + (ink gs.flatten).length) hs := by
  induction gs generalizing before with
  | nil => rfl
  | cons g gs ih =>
    simp only [List.cons_append, lettersIn, ih, List.flatten_cons, ink_append, List.length_append,
      Nat.add_assoc]
    split <;> rfl

theorem lettersIn_eq_nil {gs : List Text} (h : ∀ g ∈ gs, isLetterCluster g = false)
    (line before : Nat) : lettersIn line before gs = [] := by
  induction gs generalizing before with
  | nil => rfl
  | cons g gs ih =>
    obtain ⟨hg, hgs⟩ := List.forall_mem_cons.mp h
    simp [lettersIn, hg, ih hgs]

theorem lettersIn_within {line before : Nat} {gs : List Text} {l : Letter}
    (h : l ∈ lettersIn line before gs) :
    l.line = line ∧ before ≤ l.before ∧ l.before < before + (ink gs.flatten).length := by
  induction gs generalizing before with
  | nil => cases h
  | cons g gs ih =>
    have hrest : l ∈ lettersIn line (before + (ink g).length) gs →
        l.line = line ∧ before ≤ l.before ∧
          l.before < before + (ink (g :: gs).flatten).length := by
      intro hl
      have := ih hl
      simp only [List.flatten_cons, ink_append, List.length_append]
      omega
    unfold lettersIn at h
    dsimp only at h
    split at h
    · rename_i hg
      have hpos := ink_pos_of_isLetterCluster hg
      rcases List.mem_cons.mp h with hl | hl
      · rw [hl, List.flatten_cons, ink_append, List.length_append]
        exact ⟨rfl, Nat.le_refl _, by simp only; omega⟩
      · exact hrest hl
    · exact hrest h

theorem lettersIn_ordered (line before : Nat) (gs : List Text) :
    (lettersIn line before gs).Pairwise Letter.Before := by
  induction gs generalizing before with
  | nil => exact .nil
  | cons g gs ih =>
    unfold lettersIn
    dsimp only
    split
    · rename_i hg
      have hpos := ink_pos_of_isLetterCluster hg
      refine .cons (fun l hl => ?_) (ih _)
      obtain ⟨hline, hbefore, -⟩ := lettersIn_within hl
      exact .inr ⟨hline.symm, by simp only; omega⟩
    · exact ih _

theorem Builder.reads_within {b : Builder} {line start before : Nat} {p : Markup.Piece} {l : Letter}
    (h : l ∈ lettersOf (b.reads line start before p)) :
    l.line = line ∧ before ≤ l.before ∧ l.before < before + (ink p.text).length := by
  cases p with
  | prose t =>
    have hl : l ∈ lettersIn line before (clusters (b.dropDoubled t)) := by
      rwa [reads, lettersOf_map_letter] at h
    have hwithin := lettersIn_within hl
    rwa [clusters_flatten, (b.dropDoubled_keepsInk t).ink_eq] at hwithin
  | cues g =>
    rw [reads, lettersOf_map_cue] at h
    cases h

theorem Builder.reads_ordered (b : Builder) (line start before : Nat) (p : Markup.Piece) :
    (lettersOf (b.reads line start before p)).Pairwise Letter.Before := by
  cases p with
  | prose t =>
    rw [reads, lettersOf_map_letter]
    exact lettersIn_ordered line before _
  | cues g =>
    rw [reads, lettersOf_map_cue]
    exact .nil

theorem readPieces_within {line start before : Nat} {b : Builder} {pieces : List Markup.Piece}
    {l : Letter} (h : l ∈ lettersOf (readPieces line start b before pieces)) :
    l.line = line ∧ before ≤ l.before := by
  induction pieces generalizing b before with
  | nil => cases h
  | cons p pieces ih =>
    rw [readPieces, lettersOf_append] at h
    rcases List.mem_append.mp h with hl | hl
    · obtain ⟨hline, hbefore, -⟩ := b.reads_within hl
      exact ⟨hline, hbefore⟩
    · obtain ⟨hline, hbefore⟩ := ih hl
      exact ⟨hline, by omega⟩

theorem readPieces_ordered (line start : Nat) (b : Builder) (before : Nat)
    (pieces : List Markup.Piece) :
    (lettersOf (readPieces line start b before pieces)).Pairwise Letter.Before := by
  induction pieces generalizing b before with
  | nil => exact .nil
  | cons p pieces ih =>
    rw [readPieces, lettersOf_append]
    refine List.pairwise_append.mpr ⟨b.reads_ordered line start before p, ih _ _, ?_⟩
    intro l hl m hm
    obtain ⟨hline, -, hbefore⟩ := b.reads_within hl
    obtain ⟨hline', hbefore'⟩ := readPieces_within hm
    exact .inr ⟨hline.trans hline'.symm, Nat.lt_of_lt_of_le hbefore hbefore'⟩

theorem readLines_within {line : Nat} {pending : Option Group} {slices : List Slice} {l : Letter}
    (h : l ∈ lettersOf (readLines line pending slices)) : line ≤ l.line := by
  induction slices generalizing line pending with
  | nil => cases h
  | cons s slices ih =>
    rw [readLines, lettersOf_append] at h
    rcases List.mem_append.mp h with hl | hl
    · exact Nat.le_of_eq (readPieces_within hl).1.symm
    · exact Nat.le_of_succ_le (ih hl)

theorem readLines_ordered (line : Nat) (pending : Option Group) (slices : List Slice) :
    (lettersOf (readLines line pending slices)).Pairwise Letter.Before := by
  induction slices generalizing line pending with
  | nil => exact .nil
  | cons s slices ih =>
    rw [readLines, lettersOf_append]
    refine List.pairwise_append.mpr ⟨readPieces_ordered _ _ _ _ _, ih _ _, ?_⟩
    intro l hl m hm
    have hline := (readPieces_within hl).1
    have hline' := readLines_within hm
    exact .inl (by omega)

theorem stream_letters (pending : Option Group) (slices : List Slice) :
    (lettersOf (stream pending slices)).Pairwise Letter.Before := by
  rw [stream, lettersOf_append, lettersOf_map_cue, List.nil_append]
  exact readLines_ordered 0 pending slices

/-! ## Cues -/

theorem readPieces_cues (line start : Nat) (b : Builder) (before : Nat)
    (pieces : List Markup.Piece) :
    cuesOf (readPieces line start b before pieces) =
      (Group.allCues (pieces.filterMap Markup.Piece.group?)).map (Cue.shift start) := by
  induction pieces generalizing b before with
  | nil => rfl
  | cons p pieces ih =>
    rw [readPieces, cuesOf_append, ih]
    cases p with
    | prose t =>
      rw [Builder.reads, cuesOf_map_letter]
      rfl
    | cues g =>
      have hg : (Markup.Piece.cues g).group? = some g := rfl
      rw [Builder.reads, cuesOf_map_cue, List.filterMap_cons_some hg]
      simp

theorem readLines_cues (line : Nat) (pending : Option Group) (slices : List Slice) :
    cuesOf (readLines line pending slices) = slices.flatMap Slice.cues := by
  induction slices generalizing line pending with
  | nil => rfl
  | cons s slices ih =>
    rw [readLines, cuesOf_append, ih, readPieces_cues, Markup.pieces_groups, Markup.groups,
      Group.gather_cues, s.cues_shown]
    rfl

/-- The cues of the stream are those that wait, and then those of the lines. -/
theorem stream_cues (pending : Option Group) (slices : List Slice) :
    cuesOf (stream pending slices) = waiting pending ++ slices.flatMap Slice.cues := by
  rw [stream, cuesOf_append, cuesOf_map_cue, readLines_cues]

/-! ## Markers -/

theorem anchorsIn_append (line before : Nat) (fs fs' : List Fragment) :
    anchorsIn line before (fs ++ fs') =
      anchorsIn line before fs ++
        anchorsIn line (before + (ink (fs.flatMap Fragment.text)).length) fs' := by
  induction fs generalizing before with
  | nil => rfl
  | cons f fs ih =>
    cases f with
    | prose t => simp [anchorsIn, ih, Fragment.text, Nat.add_assoc]
    | marker glyph g => simp [anchorsIn, ih, Fragment.text, Nat.add_assoc]

namespace Builder

variable {b : Builder} {line : Nat}

def anchors (b : Builder) (line : Nat) : List Anchor := anchorsIn line 0 b.built.reverse

end Builder

theorem anchorsIn_addProse (line : Nat) (built : List Fragment) (t : Text) :
    anchorsIn line 0 (addProse built t).reverse = anchorsIn line 0 built.reverse := by
  unfold addProse
  split
  · rfl
  · simp [anchorsIn_append, anchorsIn]
  · simp [anchorsIn_append, anchorsIn]

/-- A marker stands behind the ink that is already there. -/
theorem anchorsIn_marker (line : Nat) (built : List Fragment) (glyph : Text) (g : Group) :
    anchorsIn line 0 (Fragment.marker glyph g :: built).reverse =
      anchorsIn line 0 built.reverse ++ [⟨⟨line, (ink (plain built)).length, glyph⟩, g.cues⟩] := by
  rw [List.reverse_cons, anchorsIn_append, Nat.zero_add]
  rfl

namespace Builder

/-- One step: what is read in a piece settles into the markers that it adds. -/
theorem settle_reads (b : Builder) (line start : Nat) (p : Markup.Piece) :
    let settled := settle (waiting b.pending) (b.reads line start (ink (plain b.built)).length p)
    (b.add start p).anchors line = b.anchors line ++ settled.1 ∧
      waiting (b.add start p).pending = settled.2 := by
  cases p with
  | cues g =>
    intro settled
    have hsettled : settled = ([], waiting b.pending ++ (g.shift start).cues) :=
      settle_map_cue _ _
    rw [hsettled, List.append_nil]
    refine ⟨rfl, ?_⟩
    unfold add addGroup
    cases b.pending <;> rfl
  | prose t =>
    dsimp only [add, reads, anchors]
    obtain ⟨hnone, hadd⟩ | ⟨g, s, hg, hs, hadd⟩ := b.addProse_cases t
    · -- nothing waits or nothing is a letter, so nothing is taken
      have hsettled : settle (waiting b.pending)
          ((lettersIn line (ink (plain b.built)).length (clusters (b.dropDoubled t))).map .letter) =
          ([], waiting b.pending) := by
        rcases hnone with hpending | hletter
        · rw [hpending]
          exact settle_map_letter _
        · rw [lettersIn_eq_nil (isLetterCluster_of_splitAtLetter?_none hletter)]
          rfl
      rw [hadd, hsettled, List.append_nil]
      exact ⟨anchorsIn_addProse line b.built _, rfl⟩
    · -- the first letter takes the cues, and none are left for the others
      obtain ⟨before, after, hclusters, hbefore, -, hnone, hletter⟩ := splitAtLetter?_clusters hs
      have hwaiting : waiting (some g) ≠ [] := List.cons_ne_nil g.first g.others
      have hink : (ink (plain b.built)).length + (ink before.flatten).length =
          (ink (plain (Line.addProse b.built s.before))).length := by
        rw [(addProse_keepsInk b.built s.before).ink_eq, ink_append, List.length_append, hbefore]
      rw [hadd, hg, hclusters, lettersIn_append, lettersIn_eq_nil hnone, List.nil_append, lettersIn,
        if_pos hletter, List.map_cons, settle, if_neg hwaiting, settle_map_letter, hink]
      dsimp only
      rw [anchorsIn_addProse, anchorsIn_marker, anchorsIn_addProse]
      exact ⟨rfl, rfl⟩

theorem settle_readPieces (b : Builder) (line start : Nat) (pieces : List Markup.Piece) :
    let settled := settle (waiting b.pending)
      (readPieces line start b (ink (plain b.built)).length pieces)
    (pieces.foldl (add start) b).anchors line = b.anchors line ++ settled.1 ∧
      waiting (pieces.foldl (add start) b).pending = settled.2 := by
  induction pieces generalizing b with
  | nil => simp [readPieces, settle]
  | cons p pieces ih =>
    obtain ⟨hanchors, hwaiting⟩ := b.settle_reads line start p
    obtain ⟨hanchors', hwaiting'⟩ := ih (b.add start p)
    have hink : (ink (plain b.built)).length + (ink p.text).length =
        (ink (plain (b.add start p).built)).length := by
      rw [(keepsInk_add start b p).ink_eq, ink_append, List.length_append]
    rw [readPieces, hink, settle_append, List.foldl_cons, ← hwaiting, hanchors', hanchors,
      List.append_assoc]
    exact ⟨rfl, hwaiting'⟩

end Builder

/-- What is read in some lines settles into their markers. -/
theorem settle_readLines (line : Nat) (pending : Option Group) (slices : List Slice) :
    settle (waiting pending) (readLines line pending slices) =
      (anchors line (renderAll pending slices).1, waiting (renderAll pending slices).2) := by
  induction slices generalizing line pending with
  | nil => rfl
  | cons s slices ih =>
    obtain ⟨hanchors, hwaiting⟩ :=
      Builder.settle_readPieces { pending } line s.start (Markup.pieces s.shown)
    have hline : settle (waiting pending) (readPieces line s.start { pending } 0
        (Markup.pieces s.shown)) =
        (anchorsIn line 0 (render pending s).1.fragments, waiting (render pending s).2) :=
      Prod.ext hanchors.symm hwaiting.symm
    rw [readLines, settle_append, hline, ih]
    rfl

/-- A cue behind the last letter of its line goes to the next line, and past a digit there. -/
example :
    let lines := [⟨0, 0, "a[cue:vfx|x]1".toList, false⟩, ⟨1, 14, "2b".toList, false⟩]
    anchors 0 (renderAll none lines).1 =
      [⟨⟨1, 1, ['b']⟩, [⟨.vfx, ['x'], {}, 1, 12, "[cue:vfx|x]".toList⟩]⟩] := by
  decide +kernel

end CuedProse.Line
