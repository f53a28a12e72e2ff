import CuedProse.Glyph.Cluster
import CuedProse.Line.Fragment
import CuedProse.Markup.Unfinished

/-!
# Anchoring

A line is rendered from what is revealed of it. Its cues are taken out, and each group of them
waits for the next letter, which becomes its marker. A group that meets no letter on its line waits
on, so at most one group is pending from line to line: a later group joins one that still waits.
This is spec §4.6, with the details of §H.
-/
namespace CuedProse

namespace Markup

inductive Piece where
  | prose (text : Text)
  | cues (group : Group)
  deriving DecidableEq, Repr

/-- The pieces of `t` from offset `cursor` on, which the ordered `groups` cut it into. -/
def piecesFrom (t : Text) (cursor : Nat) : List Group → List Piece
  | [] => [.prose (t.drop cursor)]
  | g :: groups =>
    .prose (Text.slice t cursor g.start) :: .cues g :: piecesFrom t g.stop groups

def groups (t : Text) : List Group := Group.gather t (cues t)

/-- `t` as prose and groups of cues in turn; it begins and ends with prose, perhaps empty (spec
§4.6, step 3). -/
def pieces (t : Text) : List Piece := piecesFrom t 0 (groups t)

end Markup

namespace Line

open Glyph

structure Builder where
  /-- The group that waits for a letter. -/
  pending : Option Group
  /-- The fragments so far, last one first. -/
  built : List Fragment := []
  /-- Whether a group was taken out of this line. -/
  afterGroup : Bool := false
  deriving DecidableEq, Repr

namespace Builder

/-- The prose of a piece without the one space that would double a space in front of the group
before it (spec §4.6, step 3). -/
def dropDoubled (b : Builder) (t : Text) : Text :=
  if b.afterGroup && endsWithSpace b.built then
    match t with
    | c :: rest => if isHorizontalSpace c then rest else t
    | [] => []
  else t

/-- Adds prose. Its first letter, with its cluster, becomes the marker of the pending group (spec
§4.6, steps 2 to 4, and §H). -/
def addProse (b : Builder) (t : Text) : Builder :=
  let t := b.dropDoubled t
  match b.pending with
  | none => { b with built := Line.addProse b.built t }
  | some g =>
    match splitAtLetter? t with
    | none => { b with built := Line.addProse b.built t }
    | some s =>
      { b with
        pending := none
        built := Line.addProse (.marker s.glyph g :: Line.addProse b.built s.before) s.after }

/-- Takes a group out of the line; it joins one that still waits (spec §4.6, step 3, and §H). -/
def addGroup (b : Builder) (g : Group) : Builder :=
  { b with
    pending := some (match b.pending with
      | some waiting => waiting.append g
      | none => g)
    afterGroup := true }

/-- Adds a piece of a line that starts at offset `start` of its chapter. -/
def add (start : Nat) (b : Builder) : Markup.Piece → Builder
  | .prose t => b.addProse t
  | .cues g => b.addGroup (g.shift start)

end Builder

/-- What is revealed of a line. -/
structure Slice where
  /-- The number of the line. -/
  line : Nat
  /-- The offset of the line in its chapter. -/
  start : Nat
  text : Text
  /-- Whether more of the line is still to come. -/
  cut : Bool
  deriving DecidableEq, Repr

/-- The text of a slice without unfinished markup (spec §4.6, step 1). -/
def Slice.shown (s : Slice) : Text := if s.cut then Markup.hideUnfinished s.text else s.text

/-- Renders one line; `pending` is the group that waits when it begins. The answer holds the group
that waits when it ends (spec §4.6). -/
def render (pending : Option Group) (s : Slice) : RenderedLine × Option Group :=
  let b := (Markup.pieces s.shown).foldl (Builder.add s.start) { pending }
  (⟨s.line, b.built.reverse⟩, b.pending)

def renderAll (pending : Option Group) : List Slice → List RenderedLine × Option Group
  | [] => ([], pending)
  | s :: rest =>
    let (line, pending) := render pending s
    let (lines, pending) := renderAll pending rest
    (line :: lines, pending)

end Line

end CuedProse
