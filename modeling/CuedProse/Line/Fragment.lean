import CuedProse.Cue.Group
import CuedProse.Line.Tidy

/-!
# Fragments

A rendered line is a list of fragments: tidy prose, and markers, each of them one glyph that stands
for a group of cues. While a line is built its fragments are kept last one first.
-/
namespace CuedProse

inductive Fragment where
  /-- Prose without markup. -/
  | prose (text : Text)
  /-- A glyph that shows the cues of a group when pointed at. -/
  | marker (glyph : Text) (group : Group)
  deriving DecidableEq, Repr

namespace Fragment

def text : Fragment → Text
  | prose t => t
  | marker glyph _ => glyph

/-- The same, with braces around a marker. -/
def marked : Fragment → Text
  | prose t => t
  | marker glyph _ => '\x7b' :: glyph ++ ['\x7d']

def group? : Fragment → Option Group
  | prose _ => none
  | marker _ g => some g

end Fragment

structure RenderedLine where
  /-- The number of the line in its chapter. -/
  line : Nat
  fragments : List Fragment
  deriving DecidableEq, Repr

namespace RenderedLine

def plain (l : RenderedLine) : Text := l.fragments.flatMap Fragment.text

/-- The line as displayed, with braces around each marker. -/
def marked (l : RenderedLine) : Text := l.fragments.flatMap Fragment.marked

/-- The groups of the markers, from left to right. -/
def groups (l : RenderedLine) : List Group := l.fragments.filterMap Fragment.group?

end RenderedLine

namespace Line

open Glyph

/-- `t` without the horizontal space it ends with. -/
def dropSpaceEnd (t : Text) : Text := (t.reverse.dropWhile isHorizontalSpace).reverse

/-- Adds prose to a line, tidied (spec §4.6, sanitization). It joins a prose fragment at the end of
the line, which loses its final space if closing punctuation follows. -/
def addProse (built : List Fragment) (t : Text) : List Fragment :=
  match tidy t, built with
  | [], _ => built
  | c :: rest, .prose earlier :: before =>
    .prose ((if isClosing c then dropSpaceEnd earlier else earlier) ++ c :: rest) :: before
  | c :: rest, _ => .prose (c :: rest) :: built

/-- Whether a line ends with prose that ends with horizontal space. -/
def endsWithSpace : List Fragment → Bool
  | .prose t :: _ => t.getLast?.any isHorizontalSpace
  | _ => false

end Line

end CuedProse
