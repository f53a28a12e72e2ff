import CuedProse.Cue.Basic
import CuedProse.Reading.Log
import CuedProse.Reading.Options

/-!
# Triggering

A cue fires when the reader passes its end going forward. The first offset of a session only says
where the reader starts. Cues are known by the offset at which they open. This is spec §4.5, with
the second policy of §D.
-/
namespace CuedProse

/-- A set of offsets, in ascending order (spec §3, `FiredCueSet`). -/
structure OffsetSet where
  offsets : List Nat := []
  deriving DecidableEq, Repr

namespace OffsetSet

/-- Puts `n` in its place, unless it is there. -/
def insertOrdered (n : Nat) : List Nat → List Nat
  | [] => [n]
  | m :: rest =>
    if n < m then n :: m :: rest
    else if n = m then m :: rest
    else m :: insertOrdered n rest

def insert (s : OffsetSet) (n : Nat) : OffsetSet := ⟨insertOrdered n s.offsets⟩

def erase (s : OffsetSet) (n : Nat) : OffsetSet := ⟨s.offsets.filter (· ≠ n)⟩

def contains (s : OffsetSet) (n : Nat) : Bool := s.offsets.contains n

def size (s : OffsetSet) : Nat := s.offsets.length

end OffsetSet

/-- What the host is told when a cue fires (spec §G). -/
structure Firing where
  kind : Kind
  effect : Text
  params : Params
  start : Nat
  stop : Nat
  deriving DecidableEq, Repr

namespace Firing

def ofCue (c : Cue) : Firing := ⟨c.kind, c.effect, c.params, c.start, c.stop⟩

def entry (f : Firing) : LogEntry :=
  let kind := String.ofList f.kind.name
  let effect := String.ofList f.effect
  ⟨.info, s!"cue fired: {kind}/{effect} at {f.start}..{f.stop}"⟩

end Firing

/-- What must be remembered to fire cues (spec §4.5). -/
structure Trigger where
  /-- The offset that was reached last. -/
  previous : Option Nat := none
  /-- The cues that have fired. -/
  fired : OffsetSet := {}
  /-- The cues that may fire again, because the reader went back before their end. -/
  rearmed : OffsetSet := {}
  deriving DecidableEq, Repr

namespace Trigger

/-- The trigger before the first offset of a session. -/
def reset (t : Trigger) : Trigger := { t with previous := none, fired := {}, rearmed := {} }

/-- The cues that end after `low` and not after `high`. The cues are ordered and disjoint. -/
def between (low high : Nat) (cues : List Cue) : List Cue :=
  (cues.dropWhile (·.stop ≤ low)).takeWhile (·.stop ≤ high)

def isArmed (t : Trigger) (c : Cue) : Bool :=
  t.rearmed.contains c.start || !t.fired.contains c.start

/-- What a move of the reader comes to. -/
structure Move where
  /-- The trigger afterwards. -/
  trigger : Trigger
  /-- The cues that fire, in text order. -/
  sent : List Cue := []
  /-- How many cues fire. -/
  count : Nat := 0
  deriving DecidableEq, Repr

/-- Fires those of `cues` that may fire, and counts them. -/
def fireAll (t : Trigger) : List Cue → Move
  | [] => { trigger := t }
  | c :: cues =>
    if t.isArmed c then
      let t := { t with fired := t.fired.insert c.start, rearmed := t.rearmed.erase c.start }
      let rest := t.fireAll cues
      { rest with sent := c :: rest.sent, count := rest.count + 1 }
    else t.fireAll cues

/-- Moves to the offset `target`. The first move fires nothing; going back fires nothing either, but
under `Policy.everyCrossing` rearms the cues that are passed (spec §4.5, §D). -/
def advance (t : Trigger) (target : Nat) (cues : List Cue) (policy : Policy) : Move :=
  let moved := { t with previous := some target }
  match t.previous with
  | none => { trigger := moved }
  | some previous =>
    if target < previous then
      match policy with
      | .once => { trigger := moved }
      | .everyCrossing =>
        let crossed := between target previous cues
        let rearmed := crossed.foldl (fun s c => s.insert c.start) t.rearmed
        { trigger := { moved with rearmed } }
    else moved.fireAll (between previous target cues)

end Trigger

end CuedProse
