import Mathlib.Data.List.DropRight
import CuedProse.Reading.Session

/-!
# What a session remembers

A session may load, fail to load and sample in any order. All that is left of it is the source
loaded last and the samples since.

* `Request.source?`: the source that a request loads, if nothing fails.
* `handle_of_source`, `handle_of_failing`, `handle_of_sample`: what a load, a load that fails and a
  sample do to a session.
* `after_of_keeping`: between two loads only the samples count.
* `replay`: one load and the samples since; `after_replay`: it leads to the same session and to the
  same frames as the requests it is made from.
* `replay_law`: so this is all that a new session remembers of what it was asked.
-/
namespace CuedProse.Session

/-! ## Requests -/

/-- The source that a request loads, if it can be read. -/
def Request.source? : Request → Option Text
  | .load source => some source
  | .loadFile _ (.ok bytes) => bytes.utf8Decode?.map Array.toList
  | .loadFile _ (.error _) | .sample _ | .update _ | .jump _ => none

def Request.isSample : Request → Bool
  | .sample _ | .update _ | .jump _ => true
  | .load _ | .loadFile .. => false

/-- Whether an answer says where the reader is. -/
def Reply.isFrame : Reply → Bool
  | .sampled .. | .updated _ => true
  | .loaded | .failed _ => false

/-- The requests up to the last load that does not fail. -/
def upToLoad (requests : List Request) : List Request :=
  requests.rdropWhile fun r => r.source?.isNone

/-- The requests after it. -/
def sinceLoad (requests : List Request) : List Request :=
  requests.rtakeWhile fun r => r.source?.isNone

/-- One load of the source that was loaded last, if any was, and the samples since. -/
def replay (requests : List Request) : List Request :=
  ((requests.filterMap Request.source?).getLast?.map .load).toList ++
    (sinceLoad requests).filter Request.isSample

/-! ## Runs -/

def after (s : Session) : List Request → Session
  | [] => s
  | r :: requests => (s.handle r).session.after requests

def replies (s : Session) : List Request → List Reply
  | [] => []
  | r :: requests => (s.handle r).reply :: (s.handle r).session.replies requests

def frames (s : Session) (requests : List Request) : List Reply :=
  (s.replies requests).filter Reply.isFrame

theorem after_append (s : Session) (a b : List Request) :
    s.after (a ++ b) = (s.after a).after b := by
  induction a generalizing s with
  | nil => rfl
  | cons r a ih => exact ih _

/-- What is left of a session once it has loaded `source`. -/
def fresh (source : Text) (o : Options) : Session := { chapter := Chapter.ofSource source o }

variable {s : Session} {r : Request}

theorem new_eq_ok {o : Options} (h : Session.new o = .ok s) :
    s = fresh [] o ∧ o.validate = .ok o := by
  unfold Session.new Chapter.load Options.validate at h
  unfold Options.validate
  by_cases ho : o.window = 0
  · rw [if_pos ho] at h
    cases h
  · rw [if_neg ho] at h ⊢
    cases h
    exact ⟨rfl, rfl⟩

/-- A load that does not fail starts over. It keeps the options and nothing else. -/
theorem handle_of_source {source : Text} (h : r.source? = some source) {o : Options}
    (hs : s.chapter.options = o) (ho : o.validate = .ok o) :
    (s.handle r).session = fresh source o ∧ (s.handle r).reply = .loaded := by
  cases r with
  | load loaded =>
    cases h
    rw [← hs]
    exact ⟨rfl, rfl⟩
  | loadFile path content =>
    cases content with
    | error fault => cases h
    | ok bytes =>
      obtain ⟨chars, hchars, hsource⟩ := Option.map_eq_some_iff.mp h
      have hread : ∃ entry, readChapter path (.ok bytes) = .ok (Newline.normalise source, entry) := by
        simp only [readChapter, hchars, hsource]
        exact ⟨_, rfl⟩
      obtain ⟨entry, hread⟩ := hread
      have hload : s.loadFile path (.ok bytes) =
          .ok (fresh source o, [entry, (Chapter.ofSource source o).loadedEntry]) := by
        rw [loadFile, hread, hs]
        simp only [bind, Except.bind, Chapter.loadText, ho]
        rfl
      have hhandle : s.handle (.loadFile path (.ok bytes)) = ⟨fresh source o, .loaded,
          [entry, (Chapter.ofSource source o).loadedEntry]⟩ := by simp only [handle, hload]
      rw [hhandle]
      exact ⟨rfl, rfl⟩
  | sample p => cases h
  | update p => cases h
  | jump raw => cases h

theorem handle_of_failing (s : Session) (h : r.source? = none) (hsample : r.isSample = false) :
    (s.handle r).session = s ∧ ∃ failure, (s.handle r).reply = .failed failure := by
  cases r with
  | load source => cases h
  | loadFile path content =>
    have hread : ∃ failure, readChapter path content = .error failure := by
      cases content with
      | error fault => exact ⟨_, rfl⟩
      | ok bytes =>
        have hnone : bytes.utf8Decode? = none := Option.map_eq_none_iff.mp h
        exact ⟨_, by rw [readChapter, hnone]⟩
    obtain ⟨failure, hread⟩ := hread
    have hload : s.loadFile path content = .error failure := by
      rw [loadFile, hread]
      rfl
    have hhandle : s.handle (.loadFile path content) = ⟨s, .failed failure, []⟩ := by
      simp only [handle, hload]
    rw [hhandle]
    exact ⟨rfl, failure, rfl⟩
  | sample p => cases hsample
  | update p => cases hsample
  | jump raw => cases hsample

theorem handle_of_sample (s : Session) (h : r.isSample = true) :
    (s.handle r).session.chapter = s.chapter ∧ (s.handle r).reply.isFrame = true := by
  cases r with
  | load source => cases h
  | loadFile path content => cases h
  | sample p => exact ⟨rfl, rfl⟩
  | update p => exact ⟨rfl, rfl⟩
  | jump raw => exact ⟨rfl, rfl⟩

theorem options_after {o : Options} (hs : s.chapter.options = o) (ho : o.validate = .ok o)
    (requests : List Request) : (s.after requests).chapter.options = o := by
  induction requests generalizing s with
  | nil => exact hs
  | cons r requests ih =>
    refine ih ?_
    cases hsource : r.source? with
    | some source => rw [(handle_of_source hsource hs ho).1]; rfl
    | none =>
      cases hsample : r.isSample with
      | true => rw [(s.handle_of_sample hsample).1, hs]
      | false => rw [(s.handle_of_failing hsource hsample).1, hs]

/-- While no load succeeds only the samples count. -/
theorem after_of_keeping (s : Session) {requests : List Request}
    (h : ∀ r ∈ requests, r.source? = none) :
    s.after requests = s.after (requests.filter Request.isSample) ∧
      s.frames requests = s.frames (requests.filter Request.isSample) := by
  induction requests generalizing s with
  | nil => exact ⟨rfl, rfl⟩
  | cons r requests ih =>
    have hrest := fun q hq => h q (List.mem_cons_of_mem _ hq)
    obtain ⟨hafter, hframes⟩ := ih (s.handle r).session hrest
    simp only [frames] at hframes ⊢
    cases hsample : r.isSample with
    | true =>
      have hframe := (s.handle_of_sample hsample).2
      rw [List.filter_cons_of_pos hsample]
      simp only [after, replies, List.filter_cons_of_pos hframe, hframes]
      exact ⟨hafter, trivial⟩
    | false =>
      obtain ⟨hsame, failure, hreply⟩ := s.handle_of_failing (h r (List.mem_cons_self ..)) hsample
      have hframe : ¬ (Reply.failed failure).isFrame = true := Bool.false_ne_true
      rw [List.filter_cons_of_neg (by simp [hsample])]
      rw [hsame] at hafter hframes
      simp only [after, replies, hsame, hreply, List.filter_cons_of_neg hframe]
      exact ⟨hafter, hframes⟩

/-! ## Replay -/

theorem upToLoad_append_sinceLoad (requests : List Request) :
    upToLoad requests ++ sinceLoad requests = requests := List.rdropWhile_append_rtakeWhile

theorem source_of_mem_sinceLoad {requests : List Request} (h : r ∈ sinceLoad requests) :
    r.source? = none := by
  have hnone := List.mem_rtakeWhile_imp h
  simpa using hnone

/-- Nothing was loaded, or the requests up to the last load end with it. -/
theorem upToLoad_cases (requests : List Request) :
    (upToLoad requests = [] ∧ (requests.filterMap Request.source?).getLast? = none) ∨
      ∃ before r source, upToLoad requests = before ++ [r] ∧ r.source? = some source ∧
        (requests.filterMap Request.source?).getLast? = some source := by
  have hsince : (sinceLoad requests).filterMap Request.source? = [] :=
    List.filterMap_eq_nil_iff.mpr fun r hr => source_of_mem_sinceLoad hr
  have hsources : requests.filterMap Request.source? =
      (upToLoad requests).filterMap Request.source? := by
    rw [← upToLoad_append_sinceLoad requests, List.filterMap_append, hsince, List.append_nil,
      upToLoad_append_sinceLoad]
  rw [hsources]
  rcases List.eq_nil_or_concat (upToLoad requests) with hnil | ⟨before, r, hconcat⟩
  · rw [hnil]
    exact .inl ⟨rfl, rfl⟩
  · rw [List.concat_eq_append] at hconcat
    have hne : upToLoad requests ≠ [] := by simp [hconcat]
    have hlast : (upToLoad requests).getLast hne = r := by simp [hconcat]
    have hloads : ¬ ((upToLoad requests).getLast hne).source?.isNone = true :=
      List.rdropWhile_last_not _ requests hne
    rw [hlast, Option.isNone_iff_eq_none] at hloads
    obtain ⟨source, hsource⟩ := Option.ne_none_iff_exists'.mp hloads
    refine .inr ⟨before, r, source, hconcat, hsource, ?_⟩
    simp [hconcat, hsource]

/-- One load and the samples since lead where all requests lead, and show the same frames. -/
theorem after_replay {o : Options} (hs : s.chapter.options = o) (ho : o.validate = .ok o)
    (requests : List Request) :
    s.after requests = s.after (replay requests) ∧
      (s.after (upToLoad requests)).frames (sinceLoad requests) = s.frames (replay requests) := by
  have hkeeping : ∀ r ∈ sinceLoad requests, r.source? = none :=
    fun r hr => source_of_mem_sinceLoad hr
  obtain ⟨hafter, hframes⟩ := (s.after (upToLoad requests)).after_of_keeping hkeeping
  rw [← after_append, upToLoad_append_sinceLoad] at hafter
  rw [hafter, hframes, replay]
  rcases upToLoad_cases requests with ⟨hnil, hlast⟩ | ⟨before, r, source, hupTo, hsource, hlast⟩
  · rw [hnil, hlast]
    exact ⟨rfl, rfl⟩
  · -- both runs have just loaded the same source
    have hloaded : s.after (upToLoad requests) = fresh source o := by
      rw [hupTo, after_append]
      exact (handle_of_source hsource (options_after hs ho before) ho).1
    have hload := (handle_of_source (r := .load source) rfl hs ho).1
    rw [hloaded, hlast, ← hload]
    exact ⟨rfl, rfl⟩

/-- **What a session remembers.** Whatever was asked of a new session, it is as if its last source
had been loaded at once and only the samples since had been made: it is the same session, so all it
answers from now on is the same, and the samples since have shown the same frames. A load that fails
changes nothing. A load that does not fail leaves nothing but the source and the options, and it
does not matter whether the source comes as it is or as the bytes of a file. -/
theorem replay_law {o : Options} (h : Session.new o = .ok s) (requests : List Request) :
    let now := s.after requests
    now = s.after (replay requests) ∧
      (s.after (upToLoad requests)).frames (sinceLoad requests) = s.frames (replay requests) ∧
      (∀ r : Request, r.source? = none → r.isSample = false →
        (now.handle r).session = now ∧ ∃ failure, (now.handle r).reply = .failed failure) ∧
      (∀ (r : Request) source, r.source? = some source →
        (now.handle r).session = fresh source o ∧ (now.handle r).reply = .loaded) ∧
      ∀ path source, (Request.loadFile path (.ok (List.utf8Encode source))).source? =
        some source := by
  obtain ⟨hs, ho⟩ := new_eq_ok h
  have hoptions : s.chapter.options = o := by rw [hs]; rfl
  obtain ⟨hsame, hframes⟩ := after_replay hoptions ho requests
  refine ⟨hsame, hframes, fun r hnone hsample => ?_, fun r source hsource => ?_,
    fun path source => ?_⟩
  · exact handle_of_failing _ hnone hsample
  · exact handle_of_source hsource (options_after hoptions ho requests) ho
  · simp [Request.source?, List.utf8Decode?_utf8Encode]

/-- A file is loaded over another chapter and two loads fail. Only the file counts, and the four
samples since. -/
theorem replay_over_failed_loads :
    let o : Options := { policy := .everyCrossing }
    let s : Session := fresh [] o
    let requests : List Request :=
      [.load "x[cue:vfx|old]y".toList, .sample 0, .update 1,
        .loadFile "b" (.ok "a[cue:vfx|x]b".toList.utf8Encode), .sample 0,
        .loadFile "c" (.error .notFound), .update 1,
        .loadFile "d" (.ok ⟨#[0xff]⟩), .sample 0, .jump 13]
    let samples : List Request := [.sample 0, .update 1, .sample 0, .jump 13]
    Session.new o = .ok s ∧
      s.after requests = s.after (.load "a[cue:vfx|x]b".toList :: samples) ∧
      (s.after requests).reader = ⟨⟨some 13, ⟨[1]⟩, ⟨[]⟩⟩, none⟩ := by
  intro o s requests samples
  have hnew : Session.new o = .ok s := rfl
  have hbytes : (⟨#[0xff]⟩ : ByteArray).utf8Decode? = none := by decide +kernel
  have hreplay : replay requests = .load "a[cue:vfx|x]b".toList :: samples := by
    simp [replay, requests, samples, sinceLoad, List.rtakeWhile, List.filterMap_cons,
      List.filter_cons, Request.source?, hbytes, Request.isSample]
  obtain ⟨hsame, -⟩ := replay_law hnew requests
  rw [hreplay] at hsame
  refine ⟨hnew, hsame, ?_⟩
  rw [hsame]
  decide +kernel

end CuedProse.Session
