import CuedProse.Reading.Chapter
import CuedProse.Reading.Trigger

/-!
# Sessions

A session is a chapter and a reader in it. Loading a chapter starts over; a load that fails changes
nothing. A sample moves the reader and fires cues; an update does so and also renders the lines
shown.
-/
namespace CuedProse

/-- What changes while a chapter is read (spec §9, §F). -/
structure Reader where
  trigger : Trigger := {}
  /-- The group of cues that found no letter in the lines rendered last. -/
  pending : Option Group := none
  deriving DecidableEq, Repr

def Reader.reset (r : Reader) : Reader := { r with trigger := r.trigger.reset, pending := none }

namespace Chapter

/-- Moves a reader to progress `p`. The answer holds the cues that fire (spec §4.4, then §4.5). -/
def sample (ch : Chapter) (p : Float) (r : Reader) : Position × Reader × List Firing :=
  let position := ch.position p
  let move := r.trigger.advance position.raw ch.cues ch.options.policy
  (position, { r with trigger := move.trigger }, move.sent.map Firing.ofCue)

/-- Renders the lines shown at a position, and notes the group that found no letter (spec §4.6,
§F). -/
def renderFor (ch : Chapter) (p : Position) (r : Reader) : List RenderedLine × Reader :=
  let (lines, pending) := ch.render p
  (lines, { r with pending })

end Chapter

structure Session where
  chapter : Chapter
  reader : Reader := {}
  deriving DecidableEq, Repr

structure Frame where
  position : Position
  lines : List RenderedLine
  firings : List Firing
  deriving Repr

/-- The content of a file, or why there is none. -/
abbrev FileContent := Except SystemFault ByteArray

/-- The text of a chapter file, its line breaks normalised, with what is logged about it (spec §E,
§C). -/
def readChapter (path : String) (content : FileContent) : Except Failure (Text × LogEntry) :=
  match content with
  | .error fault => .error (.unreadable fault)
  | .ok bytes =>
    match bytes.utf8Decode? with
    | none => .error (.notUtf8 path)
    | some chars =>
      let text := Newline.normalise chars.toList
      let count := text.length
      let lines := (Text.lines text).length
      .ok (text, ⟨.debug, s!"read {path} ({count} chars, {lines} lines)"⟩)

namespace Session

/-- A session without text, if the options allow it. -/
def new (options : Options) : Except Failure Session :=
  (fun chapter => { chapter }) <$> Chapter.load [] options

/-- The session with another text and its reader reset (spec §5). -/
def enter (s : Session) (text : Text) : Session :=
  { chapter := Chapter.ofText text s.chapter.options, reader := s.reader.reset }

/-- Loads a source with line breaks of any kind (spec §6). -/
def load (s : Session) (source : Text) : Session := s.enter (Newline.normalise source)

/-- Loads a chapter file. The reader is reset once nothing can fail any more. -/
def loadFile (s : Session) (path : String) (content : FileContent) :
    Except Failure (Session × List LogEntry) := do
  let (text, entry) ← readChapter path content
  let chapter ← Chapter.loadText text s.chapter.options
  return ({ chapter, reader := s.reader.reset }, [entry, chapter.loadedEntry])

def sample (s : Session) (p : Float) : Session × Position × List Firing :=
  let (position, reader, firings) := s.chapter.sample p s.reader
  ({ s with reader }, position, firings)

/-- Moves the reader, fires cues and renders the lines shown, in this order (spec §F). -/
def update (s : Session) (p : Float) : Session × Frame :=
  let (s, position, firings) := s.sample p
  let (lines, reader) := s.chapter.renderFor position s.reader
  ({ s with reader }, ⟨position, lines, firings⟩)

/-- What a host can ask of a session (spec §6, §F). -/
inductive Request where
  | load (source : Text)
  | loadFile (path : String) (content : FileContent)
  /-- Move the reader and fire cues. -/
  | sample (p : Float)
  /-- Move the reader, fire cues and render. -/
  | update (p : Float)
  /-- Update at the progress that reaches a raw offset. -/
  | jump (raw : Nat)

inductive Reply where
  | loaded
  | failed (failure : Failure)
  | sampled (position : Position) (firings : List Firing)
  | updated (frame : Frame)

/-- The session after a request, its answer, and what is logged meanwhile. -/
structure Outcome where
  session : Session
  reply : Reply
  log : List LogEntry

def updated (s : Session) (p : Float) : Outcome :=
  let (s, frame) := s.update p
  ⟨s, .updated frame, frame.firings.map Firing.entry⟩

def handle (s : Session) : Request → Outcome
  | .load source =>
    let s := s.load source
    ⟨s, .loaded, [s.chapter.loadedEntry]⟩
  | .loadFile path content =>
    match s.loadFile path content with
    | .ok (s, log) => ⟨s, .loaded, log⟩
    | .error failure => ⟨s, .failed failure, []⟩
  | .sample p =>
    let (s, position, firings) := s.sample p
    ⟨s, .sampled position firings, firings.map Firing.entry⟩
  | .update p => s.updated p
  | .jump raw => s.updated (s.chapter.progressAt raw)

end Session

end CuedProse
