import CuedProse.Glyph.Ranges

/-!
# White space

White space is the Unicode property White_Space, so the ideographic space and the no-break space
count. Within a line only horizontal space matters: white space other than a line feed.
-/
namespace CuedProse.Glyph

def whiteSpace : RangeTable := .mk [
  (0x9, 0xD), (0x20, 0x20), (0x85, 0x85), (0xA0, 0xA0), (0x1680, 0x1680), (0x2000, 0x200A),
  (0x2028, 0x2029), (0x202F, 0x202F), (0x205F, 0x205F), (0x3000, 0x3000)]

def isSpace (c : Char) : Bool := whiteSpace.contains c

/-- White space that does not end a line. -/
def isHorizontalSpace (c : Char) : Bool := isSpace c && c != '\n'

end CuedProse.Glyph
