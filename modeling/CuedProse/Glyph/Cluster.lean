import CuedProse.Text
import CuedProse.Glyph.Break
import CuedProse.Glyph.Letter

/-!
# Grapheme clusters

What a reader takes for one character may be several: a letter with accents, a syllable of jamo, an
emoji made of several pictographs. The rules decide, from what was read so far and the next
character, whether a boundary lies between them; `Context` keeps of the past what they ask for. So
the boundaries in a text do not depend on what comes later.
-/
namespace CuedProse.Glyph

/-- A pictograph sequence that a further pictograph may continue. -/
inductive Emoji where
  | none
  /-- A pictograph and marks that extend it. -/
  | pictograph
  /-- The same, then a joiner. -/
  | joined
  deriving DecidableEq, Repr

/-- A conjunct that a further consonant may continue. -/
inductive Conjunct where
  | none
  /-- A consonant and marks that extend it. -/
  | consonant
  /-- The same, with a linker among the marks. -/
  | linked
  deriving DecidableEq, Repr

/-- What the rules remember of the characters before a possible boundary. -/
structure Context where
  /-- The class of the last character. -/
  last : Break
  /-- Whether an odd number of regional indicators ends here. -/
  oddRegional : Bool
  emoji : Emoji
  conjunct : Conjunct
  deriving DecidableEq, Repr

namespace Context

def nextEmoji (e : Emoji) (c : Char) (b : Break) : Emoji :=
  if isPictograph c then .pictograph
  else match e, b with
    | .pictograph, .extend => .pictograph
    | .pictograph, .joiner => .joined
    | _, _ => .none

/-- The conjunct after one more character. The non-joiner is the one extending mark that ends it. -/
def nextConjunct (j : Conjunct) (c : Char) (b : Break) : Conjunct :=
  if isConjunctConsonant c then .consonant
  else if j = .none then .none
  else if isConjunctLinker c then .linked
  else if (b = .extend ∨ b = .joiner) ∧ c.toNat ≠ 0x200C then j
  else .none

def first (c : Char) : Context :=
  let b := Break.ofChar c
  { last := b
    oddRegional := b = .regional
    emoji := nextEmoji .none c b
    conjunct := nextConjunct .none c b }

def next (x : Context) (c : Char) : Context :=
  let b := Break.ofChar c
  { last := b
    oddRegional := b = .regional ∧ ¬ x.oddRegional
    emoji := nextEmoji x.emoji c b
    conjunct := nextConjunct x.conjunct c b }

/-- Whether the cluster that ends in context `x` goes on with `c`. -/
def joins (x : Context) (c : Char) : Bool :=
  match x.last, Break.ofChar c with
  | .carriageReturn, .lineFeed => true
  | .carriageReturn, _ | .lineFeed, _ | .control, _ => false
  | _, .carriageReturn | _, .lineFeed | _, .control => false
  | .initial, .initial | .initial, .vowel | .initial, .syllable | .initial, .closedSyllable => true
  | .syllable, .vowel | .syllable, .final | .vowel, .vowel | .vowel, .final => true
  | .closedSyllable, .final | .final, .final => true
  | _, .extend | _, .joiner | _, .spacing => true
  | .leading, _ => true
  | .regional, .regional => x.oddRegional
  | _, _ =>
    (x.conjunct = .linked && isConjunctConsonant c) || (x.emoji = .joined && isPictograph c)

end Context

/-- The clusters of a text that continues a cluster in progress: `started` holds its characters so
far, last one first, and `x` what the rules remember. -/
def clustersFrom (x : Context) (started : Text) : Text → List Text
  | [] => [started.reverse]
  | c :: t =>
    if x.joins c then clustersFrom (x.next c) (c :: started) t
    else started.reverse :: clustersFrom (x.next c) [c] t

/-- The grapheme clusters of `t`. -/
def clusters : Text → List Text
  | [] => []
  | c :: t => clustersFrom (Context.first c) [c] t

/-- A cluster is a letter if its first character is one. -/
def isLetterCluster (g : Text) : Bool := g.head?.any isLetter

/-- A text taken apart at a letter. -/
structure LetterSplit where
  before : Text
  /-- The whole cluster: the letter and its marks. -/
  glyph : Text
  after : Text
  deriving DecidableEq, Repr

/-- Takes `t` apart at its first letter cluster (spec §4.6, steps 2 and 3, and §H). -/
def splitAtLetter? (t : Text) : Option LetterSplit :=
  let gs := clusters t
  match gs.dropWhile (fun g => !isLetterCluster g) with
  | [] => none
  | g :: rest => some ⟨(gs.takeWhile (fun g => !isLetterCluster g)).flatten, g, rest.flatten⟩

end CuedProse.Glyph
