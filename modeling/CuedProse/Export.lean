import CuedProse.Json
import CuedProse.Number.Shortest
import CuedProse.Reading.Session

/-!
# Export

Cues, firings, options, positions and stretches as JSON, for hosts that keep or send them
(spec §D).
-/
namespace CuedProse

/-- A known family by its name, any other one with the name it was given. -/
def Kind.json : Kind → Json
  | vfx => .string ['V', 'f', 'x']
  | sound => .string ['S', 'o', 'u', 'n', 'd']
  | image => .string ['I', 'm', 'a', 'g', 'e']
  | other t => .object [("Other", .string t)]

/-- The entries as pairs, in order. -/
def Params.json (p : Params) : Json :=
  .object [("entries", .array (p.entries.map fun e => .array [.string e.1, .string e.2]))]

/-- All fields of a firing. -/
def Firing.fields (f : Firing) : List (String × Json) :=
  [("cue_type", f.kind.json), ("effect", .string f.effect), ("params", f.params.json),
    ("raw_start", .count f.start), ("raw_end", .count f.stop)]

def Firing.json (f : Firing) : Json := .object f.fields

/-- A cue as an object: its firing, and the markup. -/
def Cue.json (c : Cue) : Json :=
  .object ((Firing.ofCue c).fields ++ [("original_text", .string c.markup)])

def Policy.json : Policy → Json
  | once => .string "OncePerSession".toList
  | everyCrossing => .string "EveryForwardCrossing".toList

def Options.json (o : Options) : Json :=
  .object [("window_lines", .count o.window), ("fire_policy", o.policy.json)]

def LineReveal.json (l : LineReveal) : Json :=
  .object [("line", .count l.line), ("revealed_chars", .count l.revealed),
    ("full_length", .count l.length)]

def Position.json (p : Position) : Json :=
  .object [("progress", .number (Number.shortestText p.progress)),
    ("target_visible", .count p.visible), ("target_raw", .count p.raw),
    ("target_line", .count p.place.line), ("target_char", .count p.place.char),
    ("window", .array (p.window.map LineReveal.json)),
    ("total_visible", .count p.totalVisible), ("total_raw", .count p.totalRaw)]

def Stretch.json (s : Stretch) : Json :=
  .object [("raw_start", .count s.start), ("raw_end", .count s.stop),
    ("visible_prefix", .count s.before)]

end CuedProse
