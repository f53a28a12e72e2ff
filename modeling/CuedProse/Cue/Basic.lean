import CuedProse.Cue.Params

/-!
# Cues

A cue names an effect and the family it belongs to, and says which characters of the text spell it.
-/
namespace CuedProse

/-- The family of an effect; unknown ones pass as they are (spec §7). -/
inductive Kind where
  | vfx | sound | image
  /-- A family outside the three known ones, as written. -/
  | other (name : Text)
  deriving DecidableEq, Repr

namespace Kind

def name : Kind → Text
  | vfx => ['v', 'f', 'x']
  | sound => ['s', 'o', 'u', 'n', 'd']
  | image => ['i', 'm', 'a', 'g', 'e']
  | other t => t

/-- Reads a family. White space around it and the case of ASCII letters do not matter, and `fx` is
short for `vfx` (spec §4.1). -/
def ofText (raw : Text) : Kind :=
  let written := Text.trim raw
  let lower := written.map Char.toLower
  if lower = vfx.name ∨ lower = ['f', 'x'] then vfx
  else if lower = sound.name then sound
  else if lower = image.name then image
  else other written

end Kind

/-- One occurrence of a cue (spec §3). -/
structure Cue where
  kind : Kind
  effect : Text
  params : Params
  /-- The offset of the opening bracket. -/
  start : Nat
  /-- The offset just past the closing bracket. -/
  stop : Nat
  /-- The characters that spell the cue, brackets included. -/
  markup : Text
  deriving DecidableEq, Repr

namespace Cue

def length (c : Cue) : Nat := c.stop - c.start

def isEmpty (c : Cue) : Bool := decide (c.stop ≤ c.start)

/-- The cue in a text with `delta` more characters in front. -/
def shift (delta : Nat) (c : Cue) : Cue :=
  { c with start := c.start + delta, stop := c.stop + delta }

end Cue

end CuedProse
