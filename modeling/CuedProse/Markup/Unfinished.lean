import CuedProse.Markup.Scanner

/-!
# Unfinished markup

A line that is cut in the middle may end inside a cue. `hideUnfinished` takes away what might be the
beginning of one: everything from the last opening mark if no bracket closes after it, or else a
first part of the opening mark at the very end.
-/
namespace CuedProse.Markup

def lastOccurrence? (mark : Text) : Text → Option Nat
  | [] => if mark.isEmpty then some 0 else none
  | c :: t =>
    match lastOccurrence? mark t with
    | some k => some (k + 1)
    | none => if mark.isPrefixOf (c :: t) then some 0 else none

/-- `t` without a proper beginning of the opening mark at its end; the longest one counts. -/
def hideMarkStart (t : Text) : Text :=
  match [4, 3, 2, 1].find? (fun n => (openingMark.take n).isSuffixOf t) with
  | some n => t.take (t.length - n)
  | none => t

/-- `t` without what may be the beginning of a cue at its end (spec §4.6, step 1). -/
def hideUnfinished (t : Text) : Text :=
  match lastOccurrence? openingMark t with
  | some k => if (t.drop k).contains ']' then hideMarkStart t else t.take k
  | none => hideMarkStart t

end CuedProse.Markup
