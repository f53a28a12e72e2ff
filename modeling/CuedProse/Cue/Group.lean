import CuedProse.Cue.Basic

/-!
# Groups of cues

Cues with nothing but white space between them form a group, which shares one marker. A group holds
at least one cue, by its type.
-/
namespace CuedProse

/-- A non-empty run of cues (spec §3, `CueGroup`). -/
structure Group where
  first : Cue
  others : List Cue := []
  deriving DecidableEq, Repr

namespace Group

def cues (g : Group) : List Cue := g.first :: g.others

def last (g : Group) : Cue := g.others.getLastD g.first

def start (g : Group) : Nat := g.first.start

def stop (g : Group) : Nat := g.last.stop

def size (g : Group) : Nat := g.cues.length

/-- The group in a text with `delta` more characters in front. -/
def shift (delta : Nat) (g : Group) : Group :=
  ⟨g.first.shift delta, g.others.map (Cue.shift delta)⟩

def push (g : Group) (c : Cue) : Group := { g with others := g.others ++ [c] }

def append (g h : Group) : Group := { g with others := g.others ++ h.cues }

end Group

/-- Reads the gaps between cues, front to back and each character once. -/
structure GapReader where
  /-- How many characters have been read. -/
  position : Nat
  /-- The characters not read yet. -/
  rest : Text
  deriving DecidableEq, Repr

namespace GapReader

def ofText (t : Text) : GapReader := ⟨0, t⟩

/-- Moves to `start`, unless that is already passed, and reads up to `stop`. The answer is whether
all that was read is white space; a gap that runs past the text is never blank. Since nothing is
read twice, a gap that starts before the reader is judged by what is left of it. -/
def gap (r : GapReader) (start stop : Nat) : Bool × GapReader :=
  let skipped := start - r.position
  if r.rest.length < skipped then (false, { r with rest := [] })
  else
    let rest := r.rest.drop skipped
    let position := r.position + skipped
    let wanted := stop - position
    if rest.length < wanted then (false, ⟨position + rest.length, []⟩)
    else ((rest.take wanted).all Glyph.isSpace, ⟨position + wanted, rest.drop wanted⟩)

end GapReader

namespace Group

/-- Continues the group `g` with `cues`: a cue that starts after a blank gap joins it, any other
one starts a group of its own. -/
def gatherFrom (r : GapReader) (g : Group) : List Cue → List Group
  | [] => [g]
  | c :: cues =>
    if g.stop ≤ c.start then
      match r.gap g.stop c.start with
      | (true, r) => gatherFrom r (g.push c) cues
      | (false, r) => g :: gatherFrom r ⟨c, []⟩ cues
    else g :: gatherFrom r ⟨c, []⟩ cues

/-- The groups that `cues`, with offsets into `t`, form (spec §3, §4.6 step 3). -/
def gather (t : Text) : List Cue → List Group
  | [] => []
  | c :: cues => gatherFrom (GapReader.ofText t) ⟨c, []⟩ cues

end Group

end CuedProse
