import CuedProse.Cue.Basic

/-!
# Scanning for cues

A cue is written `[cue:KIND|EFFECT|key=value|…]`. The scanner reads a text one character at a time
and holds at most one candidate, a stretch that may still become a cue. An opening bracket always
starts a new candidate, a line feed ends the old one, and so does a closing bracket: it makes a cue
of the candidate if its kind and its effect are not blank. Everything else stays prose.

There is no escape: `|`, `[`, `]` and line feeds never stand inside a field. The grammar is that of
spec §4.1, malformed markup stays prose as in §7, and §9 asks for a scanner with explicit states.
-/
namespace CuedProse

namespace Markup

/-- What every cue opens with. -/
def openingMark : Text := ['[', 'c', 'u', 'e', ':']

/-- The cue that opens at `start` and has `body` between its opening mark and closing bracket, if
these fields make one (spec §4.1; a cue without an effect is none). -/
def cueOfBody? (start : Nat) (body : Text) : Option Cue :=
  match Text.splitOn '|' body with
  | kind :: effect :: fields =>
    if Text.trim kind = [] ∨ Text.trim effect = [] then none
    else some
      { kind := Kind.ofText kind
        effect := Text.trim effect
        params := Params.ofFields fields
        start
        stop := start + openingMark.length + body.length + 1
        markup := openingMark ++ body ++ [']'] }
  | _ => none

/-- How far the scanner is into a candidate (spec §9, the states of the scan). -/
inductive Progress where
  /-- So many characters of the opening mark have been read. -/
  | opening (matched : Nat)
  /-- The opening mark is complete; the characters read since, last one first. -/
  | body (read : Text)
  deriving DecidableEq, Repr

structure Candidate where
  start : Nat
  progress : Progress
  deriving DecidableEq, Repr

/-- What the scanner knows after some characters. -/
structure Scanner where
  /-- The number of characters read. -/
  offset : Nat := 0
  /-- The candidate still open. -/
  candidate : Option Candidate := none
  deriving DecidableEq, Repr

namespace Scanner

/-- The scanner after a character that is prose. -/
def pass (s : Scanner) : Scanner := { offset := s.offset + 1 }

/-- The scanner after one more character of a candidate. -/
def keep (s : Scanner) (start : Nat) (p : Progress) : Scanner :=
  { offset := s.offset + 1, candidate := some ⟨start, p⟩ }

/-- Reads a character while no candidate is open, or after one was given up. -/
def restart (s : Scanner) (c : Char) : Scanner :=
  if c = '[' then s.keep s.offset (.opening 1) else s.pass

/-- The candidate after `matched` characters of the opening mark. -/
def advanceMark (matched : Nat) : Progress :=
  if matched = openingMark.length then .body [] else .opening matched

/-- Reads one character. A cue is reported with its closing bracket; a candidate that is given up
stays prose (spec §4.1, §7). -/
def step (s : Scanner) (c : Char) : Scanner × Option Cue :=
  match s.candidate with
  | none => (s.restart c, none)
  | some ⟨start, .opening matched⟩ =>
    if openingMark[matched]? = some c then (s.keep start (advanceMark (matched + 1)), none)
    else (s.restart c, none)
  | some ⟨start, .body read⟩ =>
    if c = '[' ∨ c = '\n' then (s.restart c, none)
    else if c = ']' then (s.pass, cueOfBody? start read.reverse)
    else (s.keep start (.body (c :: read)), none)

def after (s : Scanner) (t : Text) : Scanner := t.foldl (fun s c => (s.step c).1) s

def cues (s : Scanner) : Text → List Cue
  | [] => []
  | c :: t => (s.step c).2.toList ++ (s.step c).1.cues t

end Scanner

/-- All cues of `t`, in order, adjacent ones apart (spec §4.1). -/
def cues (t : Text) : List Cue := ({} : Scanner).cues t

end Markup

end CuedProse
