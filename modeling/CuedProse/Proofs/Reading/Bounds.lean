import CuedProse.Proofs.Line.Bounds
import CuedProse.Proofs.Reading.Crossing
import CuedProse.Proofs.Reading.Replay
import CuedProse.Proofs.Visible.Bounds

/-!
# Sessions with every access checked

Behind every answer of a session stand many accesses that are in range only because of something
established elsewhere: the cues are in order because a scanner found them, the stretches because
they were made from such cues, and what is rendered is a part of the text that all of them belong
to. Here a session makes all of these accesses, fails if one is out of range, and never fails.

* `Trigger.advance?`: moving a trigger, with the crossed cues cut out between two positions.
* `Chapter.ofText?`, `position?`, `progressAt?`, `render?`: preparing and showing a chapter.
* `Session.new?`, `handle?`, `run?`: a session.
* `Chapter.InRange`, `inRange_ofText`: what holds of the chapter of every text.
* `Session.handle?_eq_some`: one request; `run?_eq_some`: any number of them.
* `requests_in_range`: every session with a window answers as if nothing could fail.
-/
namespace CuedProse

/-! ## Moving a trigger -/

namespace Trigger

/-- The cues that end after `low`, cut out from a position found by halving. -/
def behind? (low : Nat) (cues : List Cue) : Option (List Cue) := do
  let first ← partitionPoint? (fun c => some (decide (c.stop ≤ low))) cues
  range? cues first cues.length

/-- `between`, cut out between two positions found by halving. -/
def between? (low high : Nat) (cues : List Cue) : Option (List Cue) := do
  let first ← partitionPoint? (fun c => some (decide (c.stop ≤ low))) cues
  let last ← partitionPoint? (fun c => some (decide (c.stop ≤ high))) cues
  range? cues first last

/-- `advance`, with the crossed cues cut out. -/
def advance? (t : Trigger) (target : Nat) (cues : List Cue) (policy : Policy) :
    Option Move :=
  let moved := { t with previous := some target }
  match t.previous with
  | none => some { trigger := moved }
  | some previous =>
    if target < previous then
      match policy with
      | .once => some { trigger := moved }
      | .everyCrossing => do
        let crossed ← between? target previous cues
        let rearmed := crossed.foldl (fun s c => s.insert c.start) t.rearmed
        return { trigger := { moved with rearmed } }
    else do
      let rest ← behind? previous cues
      return moved.fireAll (rest.takeWhile (·.stop ≤ target))

variable {cues : List Cue}

theorem Ordered.partitionPoint?_eq_some (h : Ordered cues) (r : Nat) :
    partitionPoint? (fun c => some (decide (c.stop ≤ r))) cues =
      some (cues.takeWhile (·.stop ≤ r)).length :=
  CuedProse.partitionPoint?_eq_some (fun _ _ => rfl)
    (h.stop_lt.imp fun hlt hle => by
      simp only [decide_eq_true_eq] at hle ⊢
      exact Nat.le_trans (Nat.le_of_lt hlt) hle)

/-- Of two offsets the smaller one does not end up behind the other. -/
theorem Ordered.between?_eq_some (h : Ordered cues) {low high : Nat} (hle : low ≤ high) :
    between? low high cues = some (between low high cues) := by
  rw [between?, h.partitionPoint?_eq_some]
  simp only [bind, Option.bind_some, h.partitionPoint?_eq_some]
  refine range?_takeWhile fun c _ hc => ?_
  simp only [decide_eq_true_eq] at hc ⊢
  exact Nat.le_trans hc hle

theorem Ordered.advance?_eq_some (h : Ordered cues) (t : Trigger) (target : Nat)
    (policy : Policy) : t.advance? target cues policy = some (t.advance target cues policy) := by
  unfold advance? advance
  cases t.previous with
  | none => rfl
  | some previous =>
    by_cases hback : target < previous
    · simp only [if_pos hback, h.between?_eq_some (Nat.le_of_lt hback)]
      cases policy <;> rfl
    · have hbehind : behind? previous cues = some (cues.dropWhile (·.stop ≤ previous)) := by
        rw [behind?, h.partitionPoint?_eq_some]
        exact range?_dropWhile _ cues
      simp only [if_neg hback, hbehind]
      rfl

end Trigger

/-! ## Preparing and showing a chapter -/

namespace Chapter

def carriedFrom? (pending : Option Group) : List Line.Slice → Option (List (Option Group))
  | [] => some []
  | s :: rest => do
    let (_, next) ← Line.render? pending s
    let carried ← carriedFrom? next rest
    return pending :: carried

def ofText? (text : Text) (options : Options) : Option Chapter := do
  let cues ← Markup.cues? text
  let projection ← Projection.ofSpans? text.length (cues.map fun c => ⟨c.start, c.stop⟩)
  let carried ← carriedFrom? none (wholeLines 0 0 (Text.lines text))
  return { text, cues, projection, carried, options
           groups := Group.gather text cues
           lines := LineTable.ofText text }

/-- `position`, with both offsets looked up by halving. -/
def position? (ch : Chapter) (p : Float) : Option Position := do
  let progress := Progress.clamp p
  let visible := Progress.revealed progress ch.projection.totalVisible
  let raw ← ch.projection.toRaw? visible
  let place ← ch.lines.place? raw
  return { progress, visible, raw, place
           window := ch.windowAt place
           totalVisible := ch.projection.totalVisible
           totalRaw := ch.projection.totalRaw }

/-- `progressAt`, with the offset looked up by halving. -/
def progressAt? (ch : Chapter) (raw : Nat) : Option Float := do
  let visible ← ch.projection.toVisible? raw
  return Progress.reaching visible ch.projection.totalVisible

/-- `render`, with every line rendered by its bytes. -/
def render? (ch : Chapter) (p : Position) : Option (List RenderedLine × Option Group) :=
  Line.renderAll? (ch.carriedInto p.startLine) (p.window.map ch.slice)

/-- Every access to the chapter is in range. -/
structure InRange (ch : Chapter) : Prop where
  /-- No cue ends before it begins. -/
  cues : ∀ c ∈ ch.cues, c.length? = some c.length
  /-- No stretch ends before it begins. -/
  stretches : ∀ s ∈ ch.projection.stretches, s.length? = some s.length
  raw : ∀ v, ch.projection.toRaw? v = some (ch.projection.toRaw v)
  visible : ∀ r, ch.projection.toVisible? r = some (ch.projection.toVisible r)
  place : ∀ r, ch.lines.place? r = some (ch.lines.place r)
  /-- Of two offsets the smaller one has no more cues behind it. -/
  between : ∀ low high, low ≤ high →
    Trigger.between? low high ch.cues = some (Trigger.between low high ch.cues)
  advance : ∀ (t : Trigger) target policy,
    t.advance? target ch.cues policy = some (t.advance target ch.cues policy)

theorem inRange_ofText (text : Text) (options : Options) : (ofText text options).InRange := by
  have hordered : Trigger.Ordered (Markup.cues text) :=
    ⟨fun _ hc => Markup.start_lt_stop hc, Markup.cues_ordered text⟩
  exact {
    cues := fun _ hc => Markup.length?_eq_some hc
    stretches := fun _ hs => (Projection.inOrder_ofSpans _ _).length?_eq_some hs
    raw := Projection.toRaw?_eq_some _ _
    visible := Projection.toVisible?_eq_some _ _
    place := LineTable.place?_eq_some text
    between := fun _ _ hle => hordered.between?_eq_some hle
    advance := hordered.advance?_eq_some }

theorem carriedFrom?_eq_some (pending : Option Group) (slices : List Line.Slice) :
    carriedFrom? pending slices = some (carriedFrom pending slices) := by
  induction slices generalizing pending with
  | nil => rfl
  | cons s rest ih =>
    rw [carriedFrom?, Line.render?_eq_some]
    simp only [bind, Option.bind_some, ih]
    rfl

theorem ofText?_eq_some (text : Text) (options : Options) :
    ofText? text options = some (ofText text options) := by
  rw [ofText?, Markup.cues?_eq_some]
  simp only [bind, Option.bind_some, Projection.ofSpans?_eq_some, carriedFrom?_eq_some]
  rfl

variable {ch : Chapter}

theorem InRange.position?_eq_some (h : ch.InRange) (p : Float) :
    ch.position? p = some (ch.position p) := by
  rw [position?, h.raw]
  simp only [bind, Option.bind_some, h.place]
  rfl

theorem InRange.progressAt?_eq_some (h : ch.InRange) (raw : Nat) :
    ch.progressAt? raw = some (ch.progressAt raw) := by
  rw [progressAt?, h.visible]
  rfl

theorem render?_eq_some (ch : Chapter) (p : Position) : ch.render? p = some (ch.render p) :=
  Line.renderAll?_eq_some ..

end Chapter

/-! ## Sessions -/

namespace Session

def new? (options : Options) : Option (Except Failure Session) :=
  match options.validate with
  | .error failure => some (.error failure)
  | .ok options => do
    let chapter ← Chapter.ofText? (Newline.normalise []) options
    return .ok { chapter }

def sample? (s : Session) (p : Float) : Option (Session × Position × List Firing) := do
  let position ← s.chapter.position? p
  let move ← s.reader.trigger.advance? position.raw s.chapter.cues s.chapter.options.policy
  let reader := { s.reader with trigger := move.trigger }
  return ({ s with reader }, position, move.sent.map Firing.ofCue)

def updated? (s : Session) (p : Float) : Option Outcome := do
  let (s, position, firings) ← s.sample? p
  let (lines, pending) ← s.chapter.render? position
  return ⟨{ s with reader := { s.reader with pending } }, .updated ⟨position, lines, firings⟩,
    firings.map Firing.entry⟩

def loadFile? (s : Session) (path : String) (content : FileContent) :
    Option (Except Failure (Session × List LogEntry)) :=
  match readChapter path content with
  | .error failure => some (.error failure)
  | .ok (text, entry) =>
    match s.chapter.options.validate with
    | .error failure => some (.error failure)
    | .ok options => do
      let chapter ← Chapter.ofText? text options
      return .ok ({ chapter, reader := s.reader.reset }, [entry, chapter.loadedEntry])

/-- `handle`, with every access checked. -/
def handle? (s : Session) : Request → Option Outcome
  | .load source => do
    let chapter ← Chapter.ofText? (Newline.normalise source) s.chapter.options
    return ⟨{ chapter, reader := s.reader.reset }, .loaded, [chapter.loadedEntry]⟩
  | .loadFile path content => do
    match ← s.loadFile? path content with
    | .ok (s, log) => return ⟨s, .loaded, log⟩
    | .error failure => return ⟨s, .failed failure, []⟩
  | .sample p => do
    let (s, position, firings) ← s.sample? p
    return ⟨s, .sampled position firings, firings.map Firing.entry⟩
  | .update p => s.updated? p
  | .jump raw => do
    let p ← s.chapter.progressAt? raw
    s.updated? p

/-- The session after some requests and the answers to them, with every access checked. -/
def run? (s : Session) : List Request → Option (Session × List Reply)
  | [] => some (s, [])
  | r :: requests => do
    let outcome ← s.handle? r
    let (s, replies) ← outcome.session.run? requests
    return (s, outcome.reply :: replies)

variable {s : Session}

theorem sample?_eq_some (h : s.chapter.InRange) (p : Float) : s.sample? p = some (s.sample p) := by
  rw [sample?, h.position?_eq_some]
  simp only [bind, Option.bind_some, h.advance]
  rfl

theorem updated?_eq_some (h : s.chapter.InRange) (p : Float) :
    s.updated? p = some (s.updated p) := by
  rw [updated?, sample?_eq_some h]
  simp only [bind, Option.bind_some, Chapter.render?_eq_some]
  rfl

/-- A file cannot be loaded, or the chapter of a text is all that there is afterwards. -/
theorem loadFile_cases (s : Session) (path : String) (content : FileContent) :
    (∃ failure, s.loadFile path content = .error failure ∧
        s.loadFile? path content = some (.error failure)) ∨
      ∃ text options log,
        s.loadFile path content = .ok (⟨Chapter.ofText text options, s.reader.reset⟩, log) ∧
        s.loadFile? path content =
          some (.ok (⟨Chapter.ofText text options, s.reader.reset⟩, log)) := by
  unfold loadFile loadFile? Chapter.loadText
  cases readChapter path content with
  | error failure => exact .inl ⟨failure, rfl, rfl⟩
  | ok read =>
    cases s.chapter.options.validate with
    | error failure => exact .inl ⟨failure, rfl, rfl⟩
    | ok options =>
      refine .inr ⟨read.1, options, [read.2, (Chapter.ofText read.1 options).loadedEntry], rfl, ?_⟩
      simp only [Chapter.ofText?_eq_some]
      rfl

/-- A session whose chapter is in range handles every request, and its chapter stays in range: it
stays, or it is that of another text. -/
theorem handle?_eq_some (h : s.chapter.InRange) (r : Request) :
    s.handle? r = some (s.handle r) ∧ (s.handle r).session.chapter.InRange := by
  cases r with
  | load source =>
    rw [handle?, Chapter.ofText?_eq_some]
    exact ⟨rfl, Chapter.inRange_ofText _ _⟩
  | loadFile path content =>
    rcases s.loadFile_cases path content with
      ⟨failure, hload, hchecked⟩ | ⟨text, options, log, hload, hchecked⟩
    · simp only [handle?, handle, hload, hchecked]
      exact ⟨rfl, h⟩
    · simp only [handle?, handle, hload, hchecked]
      exact ⟨rfl, Chapter.inRange_ofText _ _⟩
  | sample p =>
    rw [handle?, sample?_eq_some h]
    exact ⟨rfl, h⟩
  | update p => exact ⟨updated?_eq_some h p, h⟩
  | jump raw =>
    rw [handle?, h.progressAt?_eq_some]
    exact ⟨updated?_eq_some h _, h⟩

theorem run?_eq_some (h : s.chapter.InRange) (requests : List Request) :
    s.run? requests = some (s.after requests, s.replies requests) ∧
      (s.after requests).chapter.InRange := by
  induction requests generalizing s with
  | nil => exact ⟨rfl, h⟩
  | cons r requests ih =>
    obtain ⟨hhandle, hrange⟩ := handle?_eq_some h r
    obtain ⟨hrun, hrest⟩ := ih hrange
    refine ⟨?_, hrest⟩
    rw [run?, hhandle]
    simp only [bind, Option.bind_some, hrun]
    rfl

theorem new?_eq_some {options : Options} (h : 1 ≤ options.window) :
    new? options = some (.ok (fresh [] options)) ∧ new options = .ok (fresh [] options) := by
  have hvalid : options.validate = .ok options := by
    rw [Options.validate, if_neg (Nat.one_le_iff_ne_zero.mp h)]
  constructor
  · rw [new?, hvalid]
    simp only [Chapter.ofText?_eq_some]
    rfl
  · rw [new, Chapter.load, hvalid]
    rfl

/-- **No access is out of range.** A text is cut by bytes just where its UTF-8 form can be. Whatever
the text, its cues are found by looking the opening mark up and cutting the text by bytes; whatever
slice is rendered, and whatever waits when it begins, its groups are looked up and cut out in order.
So a session with a window of one line or more can be made, and whatever it is asked to load and to
show, it answers as it does when nothing is checked. Its cues and its stretches do not end before
they begin, its tables hold what is looked up, and of two offsets the smaller one has no more cues
behind it. -/
theorem requests_in_range (options : Options) (h : 1 ≤ options.window) :
    (∀ text n, (Text.cutAt? n text).isSome ↔
        (⟨n⟩ : String.Pos.Raw).IsValid (String.ofList text)) ∧
      (∀ text, Markup.cues? text = some (Markup.cues text)) ∧
      (∀ pending slice, Line.render? pending slice = some (Line.render pending slice)) ∧
      ∃ s, Session.new? options = some (.ok s) ∧ Session.new options = .ok s ∧
        ∀ requests, s.run? requests = some (s.after requests, s.replies requests) ∧
          (s.after requests).chapter.InRange := by
  obtain ⟨hchecked, hnew⟩ := new?_eq_some h
  exact ⟨fun _ _ => Text.boundary_iff, Markup.cues?_eq_some, Line.render?_eq_some,
    fresh [] options, hchecked, hnew, run?_eq_some (Chapter.inRange_ofText _ _)⟩

/-- A session with one line and characters of several bytes in it, on which the reader goes back and
forth, a file is missing and another text is loaded. -/
theorem requests_in_range_of_multibyte :
    let o : Options := { window := 1, policy := .everyCrossing }
    let requests : List Request :=
      [.load "é[cue:vfx|ü]𝄞 [cue:x|y]\nd".toList, .sample 0, .update 1, .update (0 / 0), .jump 9,
        .loadFile "b" (.error .notFound), .load "[c[cue:é|ß] \\n".toList, .update 1]
    1 ≤ o.window ∧ Session.new o = .ok (fresh [] o) ∧
      (fresh [] o).run? requests =
        some ((fresh [] o).after requests, (fresh [] o).replies requests) ∧
      Markup.cues? "é[cue:vfx|ü]𝄞 [cue:x|y]\nd".toList =
        some (Markup.cues "é[cue:vfx|ü]𝄞 [cue:x|y]\nd".toList) ∧
      ((fresh [] o).after requests).chapter.cues.map Cue.length? = [some 9] := by
  intro o requests
  obtain ⟨-, hcues, -, s, -, hnew, hrun⟩ := requests_in_range o (by decide)
  have hs := (new_eq_ok hnew).1
  rw [hs] at hnew hrun
  refine ⟨by decide, hnew, (hrun requests).1, hcues _, ?_⟩
  decide +kernel

end Session

end CuedProse
