import CuedProse.Text

/-!
# Lines

The lines of a text are what stands between its line feeds, so a text has at least one line and a
line feed at its end opens an empty one. `LineTable` knows where each line starts and how long it
is, and turns raw offsets into places and back.
-/
namespace CuedProse

namespace Text

/-- The lines of `t`, without their line feeds. -/
def lines (t : Text) : List Text := splitOn '\n' t

def line? (t : Text) (i : Nat) : Option Text := (lines t)[i]?

/-- The first `count` characters of line `i`, or all of it; nothing past the last line. -/
def lineHead (t : Text) (i count : Nat) : Text := ((line? t i).getD []).take count

end Text

structure LineEntry where
  start : Nat
  length : Nat
  deriving DecidableEq, Repr

structure Place where
  line : Nat
  char : Nat
  deriving DecidableEq, Repr

structure LineTable where
  entries : List LineEntry
  totalRaw : Nat
  deriving DecidableEq, Repr

namespace LineTable

/-- The entries of `lines`, the first of which starts at `start` (spec §4.3). -/
def entriesFrom (start : Nat) : List Text → List LineEntry
  | [] => []
  | l :: rest => ⟨start, l.length⟩ :: entriesFrom (start + l.length + 1) rest

def ofText (t : Text) : LineTable := ⟨entriesFrom 0 (Text.lines t), t.length⟩

def size (ls : LineTable) : Nat := ls.entries.length

/-- The offset at which line `i` starts; the end of the text past the last line. -/
def start (ls : LineTable) (i : Nat) : Nat := (ls.entries[i]?.map (·.start)).getD ls.totalRaw

/-- The length of line `i`; zero past the last line. -/
def length (ls : LineTable) (i : Nat) : Nat := (ls.entries[i]?.map (·.length)).getD 0

/-- The place of the raw offset `raw`. A line feed belongs to the end of its line, and what lies
past the text to the end of the last line (spec §4.3, `rawToLineChar`). -/
def place (ls : LineTable) (raw : Nat) : Place :=
  let raw := min raw ls.totalRaw
  let line := (ls.entries.takeWhile (·.start ≤ raw)).length - 1
  match ls.entries[line]? with
  | some e => ⟨line, min (raw - e.start) e.length⟩
  | none => ⟨0, 0⟩

/-- The raw offset of a place, cut back to its line and to the text. -/
def raw (ls : LineTable) (p : Place) : Nat :=
  match ls.entries[p.line]? with
  | some e => e.start + min p.char e.length
  | none => ls.totalRaw

end LineTable

end CuedProse
