import CuedProse.Glyph.Space

/-!
# Text

Prose, markup and what is shown are lists of characters. A position in a text is the number of
characters before it, never a number of bytes.

Here and in all modules "spec §4.1" and the like name the section of the specification that a
definition follows.
-/
namespace CuedProse

/-- A run of characters. -/
abbrev Text := List Char

namespace Text

open Glyph

/-- The characters from offset `start` up to `stop`; both ends are cut back to the text. -/
def slice (t : Text) (start stop : Nat) : Text := (t.take stop).drop start

/-- The pieces of `t` between the occurrences of `sep`; always at least one. -/
def splitOn (sep : Char) : Text → List Text
  | [] => [[]]
  | c :: rest =>
    if c = sep then [] :: splitOn sep rest
    else match splitOn sep rest with
      | [] => [[c]]
      | piece :: pieces => (c :: piece) :: pieces

def trimEnd (t : Text) : Text := (t.reverse.dropWhile isSpace).reverse

def trim (t : Text) : Text := trimEnd (t.dropWhile isSpace)

/-- The length of a text in bytes of its UTF-8 form. -/
def byteLength : Text → Nat
  | [] => 0
  | c :: t => c.utf8Size + byteLength t

end Text

end CuedProse
