import CuedProse.Line.Anchor
import CuedProse.Reading.Log
import CuedProse.Reading.Options
import CuedProse.Reading.Progress
import CuedProse.Visible.Lines
import CuedProse.Visible.Newline
import CuedProse.Visible.Projection

/-!
# Chapters

A chapter is a text and all that is known about it before anybody reads: its cues and their groups,
what of it is visible, where its lines stand, and which group of cues waits for a letter when each
line begins. It never changes; a new text makes a new chapter.
-/
namespace CuedProse

/-- How much of one line is revealed. -/
structure LineReveal where
  line : Nat
  revealed : Nat
  length : Nat
  deriving DecidableEq, Repr

/-- Whether a part of the line is still hidden. -/
def LineReveal.isPartial (l : LineReveal) : Bool := decide (l.revealed < l.length)

/-- How far a chapter is revealed, at one moment (spec §3, `RevealState`, and §F). -/
structure Position where
  /-- Progress in range. -/
  progress : Float
  /-- The visible characters revealed. -/
  visible : Nat
  /-- The raw offset up to which the text is revealed. -/
  raw : Nat
  /-- The place of that offset. -/
  place : Place
  /-- The lines shown, of which the last one is being revealed. -/
  window : List LineReveal
  totalVisible : Nat
  totalRaw : Nat
  deriving Repr

namespace Position

def startLine (p : Position) : Nat := (p.window.head?.map (·.line)).getD p.place.line

def percent (p : Position) : Float := Progress.percent p.visible p.totalVisible

end Position

/-- A text prepared for reading (spec §F). -/
structure Chapter where
  text : Text
  cues : List Cue
  groups : List Group
  projection : Projection
  lines : LineTable
  /-- For each line, the group that waits for a letter when it begins. -/
  carried : List (Option Group)
  options : Options
  deriving DecidableEq, Repr

namespace Chapter

/-- For each of `slices`, the group that waits when it begins (spec §F). -/
def carriedFrom (pending : Option Group) : List Line.Slice → List (Option Group)
  | [] => []
  | s :: rest => pending :: carriedFrom (Line.render pending s).2 rest

/-- The lines of a text, numbered from `line`, the first one at offset `start`. -/
def wholeLines (line start : Nat) : List Text → List Line.Slice
  | [] => []
  | t :: rest => ⟨line, start, t, false⟩ :: wholeLines (line + 1) (start + t.length + 1) rest

/-- Prepares a text whose only line breaks are line feeds. -/
def ofText (text : Text) (options : Options) : Chapter :=
  let cues := Markup.cues text
  { text
    cues
    groups := Group.gather text cues
    projection := Projection.ofSpans text.length (cues.map fun c => ⟨c.start, c.stop⟩)
    lines := LineTable.ofText text
    carried := carriedFrom none (wholeLines 0 0 (Text.lines text))
    options }

/-- Prepares a source with line breaks of any kind. -/
def ofSource (source : Text) (options : Options) : Chapter :=
  ofText (Newline.normalise source) options

def load (source : Text) (options : Options) : Except Failure Chapter :=
  (ofSource source) <$> options.validate

def loadText (text : Text) (options : Options) : Except Failure Chapter :=
  (ofText text) <$> options.validate

def loadedEntry (ch : Chapter) : LogEntry :=
  let raw := ch.text.length
  let visible := ch.projection.totalVisible
  let cues := ch.cues.length
  let groups := ch.groups.length
  let lines := ch.lines.size
  ⟨.debug, s!"loaded chapter: {raw} raw chars, {visible} visible, " ++
    s!"{cues} cues in {groups} groups, {lines} lines"⟩

/-- The group that waits for a letter when line `i` begins. -/
def carriedInto (ch : Chapter) (i : Nat) : Option Group := (ch.carried[i]?).join

/-- The lines shown when `place` is being revealed: those before it as a whole, its own line up to
it (spec §4.4, step 5). -/
def windowAt (ch : Chapter) (place : Place) : List LineReveal :=
  let first := place.line + 1 - ch.options.window
  (List.range' first (place.line + 1 - first)).map fun line =>
    let length := ch.lines.length line
    ⟨line, if line < place.line then length else place.char, length⟩

/-- How far the chapter is revealed at progress `p` (spec §4.4). -/
def position (ch : Chapter) (p : Float) : Position :=
  let progress := Progress.clamp p
  let visible := Progress.revealed progress ch.projection.totalVisible
  let raw := ch.projection.toRaw visible
  let place := ch.lines.place raw
  { progress, visible, raw, place
    window := ch.windowAt place
    totalVisible := ch.projection.totalVisible
    totalRaw := ch.projection.totalRaw }

/-- A progress that reveals the visible text before the raw offset `raw`, and no more (spec §F). -/
def progressAt (ch : Chapter) (raw : Nat) : Float :=
  Progress.reaching (ch.projection.toVisible raw) ch.projection.totalVisible

/-- What is revealed of a line of the window. -/
def slice (ch : Chapter) (l : LineReveal) : Line.Slice :=
  ⟨l.line, ch.lines.start l.line, Text.lineHead ch.text l.line l.revealed, l.isPartial⟩

/-- The lines shown at a position, and the group of cues that found no letter in them. -/
def render (ch : Chapter) (p : Position) : List RenderedLine × Option Group :=
  Line.renderAll (ch.carriedInto p.startLine) (p.window.map ch.slice)

end Chapter

end CuedProse
