import CuedProse.CommandLine.Arguments
import CuedProse.Number.Fixed
import CuedProse.Reading.Session

/-!
# Playing a chapter

The command plays a chapter from its beginning to its end in equal steps, and prints what a reader
would see at each: the lines shown, with braces around the markers, and the cues that fire (spec
§A).
-/
namespace CuedProse.CommandLine

/-- The text printed when help is asked for. -/
def helpText : String :=
  "reveal_demo - progressive reveal of a chapter file

USAGE:
    reveal_demo <FILE> [OPTIONS]

OPTIONS:
    -h, --help              Print this help message and exit
    --steps <N>             Progress samples from 0 to 1 (default: 10)
    --window <N>            Lines in the reveal window (default: 5)
    --every-crossing        Fire cues again on every forward crossing
    --back                  Scroll back to the start after reaching the end
    -v, --verbose           Print engine log messages to stderr
"

/-- What the command writes, and the code it ends with. -/
structure Output where
  code : Nat := 0
  stdout : String := ""
  stderr : String := ""
  deriving DecidableEq, Repr

/-- Text set to the right in a field of `width` characters. -/
def padLeft (width : Nat) (s : String) : String :=
  String.ofList (List.replicate (width - s.length) ' ') ++ s

/-- Lines of text, each with a line feed. -/
def unlines (ls : List String) : String := String.join (ls.map (· ++ "\n"))

def frameHead (p : Float) (f : Frame) : String :=
  let progress := Number.fixed 2 p
  let percent := Number.fixed 1 f.position.percent
  let line := f.position.place.line + 1
  s!"== progress {progress} ({percent}% visible, line {line}) =="

def lineText (l : RenderedLine) : String :=
  padLeft 4 (toString (l.line + 1)) ++ " | " ++ String.ofList l.marked

def firingText (f : Firing) : String :=
  let params := f.params.entries.flatMap fun e => ' ' :: e.1 ++ '=' :: e.2
  "  fired " ++ String.ofList (f.kind.name ++ '/' :: f.effect ++ params)

def frameText (p : Float) (f : Frame) : List String :=
  frameHead p f :: f.lines.map lineText ++ f.firings.map firingText

def entryText (e : LogEntry) : String := "[" ++ e.level.name ++ "] " ++ e.message

/-- The samples of a performance: all steps forward, and then all but the last one backward. -/
def samples (s : Settings) : List Float :=
  let forward := List.range (s.steps + 1)
  let backward := if s.back then (List.range s.steps).reverse else []
  (forward ++ backward).map fun i => Progress.fraction i s.steps

/-- The lines printed and the entries logged while `s` is updated at each of the samples. -/
def playSamples (s : Session) : List Float → List String × List LogEntry
  | [] => ([], [])
  | p :: rest =>
    let (s, frame) := s.update p
    let (printed, logged) := playSamples s rest
    (frameText p frame ++ printed, frame.firings.map Firing.entry ++ logged)

def failed (logged message : String) : Output :=
  { code := 1, stderr := logged ++ "Error: " ++ message ++ "\n" }

/-- Plays the chapter file at `path`, which holds `content`. -/
def play (path : String) (settings : Settings) (content : FileContent) : Output :=
  let logged := fun (entries : List LogEntry) =>
    if settings.verbose then unlines (entries.map entryText) else ""
  match Session.new { window := settings.window, policy := settings.policy } with
  | .error failure => failed "" failure.message
  | .ok session =>
    let opened := [session.chapter.loadedEntry]
    match session.loadFile path content with
    | .error failure => failed (logged opened) failure.message
    | .ok (session, entries) =>
      let (printed, played) := playSamples session (samples settings)
      { stdout := unlines printed, stderr := logged (opened ++ entries ++ played) }

/-- Runs the command; `readFile` gives what is in the file at a path. -/
def run (arguments : List String) (readFile : String → FileContent) : Output :=
  match readArguments arguments with
  | .ok .help => { stdout := helpText }
  | .ok (.play path settings) => play path settings (readFile path)
  | .error e =>
    { code := 1
      stderr := "Error: " ++ e.message ++ "\nRun with --help for usage information.\n" }

end CuedProse.CommandLine
