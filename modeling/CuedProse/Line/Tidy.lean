import CuedProse.Text

/-!
# Tidying

Where markup was taken out of prose, stray brackets and doubled spaces stay behind. Tidying removes
every `]`, shrinks a run of horizontal space to its first character, and removes the space before
closing punctuation.
-/
namespace CuedProse.Line

open Glyph

/-- Punctuation that takes no space in front (spec §4.6, sanitization). -/
def isClosing (c : Char) : Bool := ['.', ',', ';', ':', '!', '?', '…'].contains c

/-- Tidies `t` while the space `held` waits for the next character that is neither space nor
bracket, which decides whether it stays (spec §4.6, sanitization). -/
def tidyFrom (held : Option Char) : Text → Text
  | [] => held.toList
  | c :: t =>
    if c = ']' then tidyFrom held t
    else if isHorizontalSpace c then tidyFrom (some (held.getD c)) t
    else if isClosing c then c :: tidyFrom none t
    else held.toList ++ c :: tidyFrom none t

/-- `t` without stray brackets and needless space. -/
def tidy (t : Text) : Text := tidyFrom none t

end CuedProse.Line
