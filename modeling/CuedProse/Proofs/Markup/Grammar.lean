import CuedProse.Proofs.Markup.Context
import CuedProse.Proofs.Text.Split
import Mathlib.Data.List.TakeWhile

/-!
# The grammar of cues

A cue is written `[cue:KIND|EFFECT|FIELD|…]`, where no part holds a bracket, a bar or a line feed
and kind and effect are not blank. `CueAt` says so of a range of a text, without the scanner, and
`Params.Reads` says which parameters the fields spell.

* `mem_cues_iff_cueAt`: the cues of a text are what the grammar reads at its ranges.
* `cues_eq_grammar`: every range of the grammar is reported once and nothing else is, in order.
-/
namespace CuedProse

namespace Params

/-- The parameters that fields spell: of each field what stands before its first `=` and what stands
behind it, trimmed. A field without `=` and one with a blank key spell none. -/
inductive Reads : List Text → List (Text × Text) → Prop where
  | nil : Reads [] []
  | param {key value : Text} {fields : List Text} {pairs : List (Text × Text)} :
    '=' ∉ key → Text.trim key ≠ [] → Reads fields pairs →
      Reads ((key ++ '=' :: value) :: fields) ((Text.trim key, Text.trim value) :: pairs)
  | blank {key value : Text} {fields : List Text} {pairs : List (Text × Text)} :
    '=' ∉ key → Text.trim key = [] → Reads fields pairs →
      Reads ((key ++ '=' :: value) :: fields) pairs
  | plain {field : Text} {fields : List Text} {pairs : List (Text × Text)} :
    '=' ∉ field → Reads fields pairs → Reads (field :: fields) pairs

theorem ofField?_of_not_mem {field : Text} (h : '=' ∉ field) : ofField? field = none := by
  have hd : field.dropWhile (· != '=') = [] := by
    rw [List.dropWhile_eq_nil_iff]
    intro c hc
    have : c ≠ '=' := fun e => h (e ▸ hc)
    simpa using this
  simp [ofField?, hd]

theorem ofField?_append {key : Text} (h : '=' ∉ key) (value : Text) :
    ofField? (key ++ '=' :: value) =
      if Text.trim key = [] then none else some (Text.trim key, Text.trim value) := by
  have hk : ∀ c ∈ key, (c != '=') = true := by
    intro c hc
    have : c ≠ '=' := fun e => h (e ▸ hc)
    simpa using this
  have hd : (key ++ '=' :: value).dropWhile (· != '=') = '=' :: value := by
    rw [List.dropWhile_append_of_pos hk]
    simp
  have ht : (key ++ '=' :: value).takeWhile (· != '=') = key := by
    rw [List.takeWhile_append_of_pos hk]
    simp
  simp [ofField?, hd, ht]

theorem reads_iff (fields : List Text) (pairs : List (Text × Text)) :
    Reads fields pairs ↔ pairs = fields.filterMap ofField? := by
  constructor
  · intro h
    induction h with
    | nil => rfl
    | param hk hb _ ih => rw [List.filterMap_cons, ofField?_append hk, if_neg hb, ih]
    | blank hk hb _ ih => rw [List.filterMap_cons, ofField?_append hk, if_pos hb, ih]
    | plain hf _ ih => rw [List.filterMap_cons, ofField?_of_not_mem hf, ih]
  · intro hin
    subst hin
    induction fields with
    | nil => exact .nil
    | cons field fields ih =>
      by_cases h : '=' ∈ field
      · obtain ⟨key, value, rfl, hk⟩ := List.eq_append_cons_of_mem h
        rw [List.filterMap_cons, ofField?_append hk]
        by_cases hb : Text.trim key = []
        · rw [if_pos hb]
          exact .blank hk hb ih
        · rw [if_neg hb]
          exact .param hk hb ih
      · rw [List.filterMap_cons, ofField?_of_not_mem h]
        exact .plain h ih

end Params

namespace Markup

/-- What may stand between two bars of a cue. -/
def IsField (t : Text) : Prop := ∀ c ∈ t, c ≠ '[' ∧ c ≠ ']' ∧ c ≠ '|' ∧ c ≠ '\n'

/-- How a cue with these parts is written. -/
def spelling (kind effect : Text) (fields : List Text) : Text :=
  openingMark ++ kind ++ (effect :: fields).flatMap ('|' :: ·) ++ [']']

/-- The characters of `t` from `start` up to `stop` are a cue with these parts. -/
structure CueAt (t : Text) (start stop : Nat) (kind effect : Text) (fields : List Text) : Prop where
  inside : stop ≤ t.length
  spelled : Text.slice t start stop = spelling kind effect fields
  isField : ∀ f ∈ kind :: effect :: fields, IsField f
  kind_ne : Text.trim kind ≠ []
  effect_ne : Text.trim effect ≠ []

def cueOf (t : Text) (start stop : Nat) (kind effect : Text) (pairs : List (Text × Text)) : Cue :=
  { kind := Kind.ofText kind
    effect := Text.trim effect
    params := Params.ofList pairs
    start
    stop
    markup := Text.slice t start stop }

theorem cueOfBody?_eq_some_iff (start : Nat) (body : Text) (c : Cue) :
    cueOfBody? start body = some c ↔ ∃ kind effect fields,
      Text.splitOn '|' body = kind :: effect :: fields ∧
      Text.trim kind ≠ [] ∧ Text.trim effect ≠ [] ∧
      c = { kind := Kind.ofText kind
            effect := Text.trim effect
            params := Params.ofFields fields
            start
            stop := start + openingMark.length + body.length + 1
            markup := openingMark ++ body ++ [']'] } := by
  unfold cueOfBody?
  constructor
  · intro h
    split at h
    · rename_i kind effect fields hs
      split at h
      · cases h
      · rename_i hb
        simp only [not_or] at hb
        cases h
        exact ⟨kind, effect, fields, hs, hb.1, hb.2, rfl⟩
    · cases h
  · intro hin
    obtain ⟨kind, effect, fields, hs, hk, he, rfl⟩ := hin
    simp [hs, hk, he]

/-- The characters of a body that bars cut into these parts. -/
theorem isField_iff_body (kind effect : Text) (fields : List Text) :
    (∀ f ∈ kind :: effect :: fields, IsField f) ↔
      (∀ x ∈ kind ++ (effect :: fields).flatMap ('|' :: ·), x ≠ '[' ∧ x ≠ ']' ∧ x ≠ '\n') ∧
      ∀ f ∈ kind :: effect :: fields, '|' ∉ f := by
  constructor
  · intro h
    refine ⟨?_, fun f hf hm => (h f hf _ hm).2.2.1 rfl⟩
    intro x hx
    rcases List.mem_append.mp hx with hx | hx
    · obtain ⟨h1, h2, -, h3⟩ := h kind (by simp) x hx
      exact ⟨h1, h2, h3⟩
    · obtain ⟨f, hf, hx⟩ := List.mem_flatMap.mp hx
      rcases List.mem_cons.mp hx with rfl | hx
      · decide
      · obtain ⟨h1, h2, -, h3⟩ := h f (List.mem_cons_of_mem _ hf) x hx
        exact ⟨h1, h2, h3⟩
  · intro hin f hf x hx
    obtain ⟨hb, hbar⟩ := hin
    have hx' : x ∈ kind ++ (effect :: fields).flatMap ('|' :: ·) := by
      rcases List.mem_cons.mp hf with rfl | hf
      · exact List.mem_append_left _ hx
      · exact List.mem_append_right _ (List.mem_flatMap.mpr ⟨f, hf, List.mem_cons_of_mem _ hx⟩)
    obtain ⟨h1, h2, h3⟩ := hb x hx'
    exact ⟨h1, h2, fun e => hbar f hf (e ▸ hx), h3⟩

theorem spelling_eq (kind effect : Text) (fields : List Text) :
    spelling kind effect fields =
      openingMark ++ (kind ++ (effect :: fields).flatMap ('|' :: ·)) ++ [']'] := by
  simp [spelling]

theorem spelling_ne_nil (kind effect : Text) (fields : List Text) :
    spelling kind effect fields ≠ [] := by
  simp [spelling]

theorem spelling_length (kind effect : Text) (fields : List Text) :
    (spelling kind effect fields).length =
      openingMark.length + (kind ++ (effect :: fields).flatMap ('|' :: ·)).length + 1 := by
  simp only [spelling_eq, List.length_append, List.length_cons, List.length_nil]

/-- The cues of a text are what the grammar reads at its ranges. -/
theorem mem_cues_iff_cueAt (t : Text) (c : Cue) :
    c ∈ cues t ↔ ∃ kind effect fields, CueAt t c.start c.stop kind effect fields ∧
      c = cueOf t c.start c.stop kind effect (fields.filterMap Params.ofField?) := by
  rw [mem_cues_iff]
  constructor
  · intro hin
    obtain ⟨before, body, rest, ht, hb, hc⟩ := hin
    have hstop : c.stop ≤ t.length := stop_le_length ((mem_cues_iff t c).mpr ⟨_, _, _, ht, hb, hc⟩)
    obtain ⟨kind, effect, fields, hs, hk, he, rfl⟩ := (cueOfBody?_eq_some_iff _ _ _).mp hc
    obtain ⟨rfl, hbar⟩ := Text.splitOn_eq_cons_iff.mp hs
    simp only [Nat.add_assoc before.length, ← spelling_length] at hstop ⊢
    have hslice : Text.slice t before.length
        (before.length + (spelling kind effect fields).length) = spelling kind effect fields := by
      refine (Text.slice_eq_iff (spelling_ne_nil _ _ _) hstop).mpr ⟨before, rest, ?_, rfl, rfl⟩
      simp [ht, spelling_eq]
    refine ⟨kind, effect, fields, ⟨hstop, hslice, ?_, hk, he⟩, ?_⟩
    · exact (isField_iff_body kind effect fields).mpr ⟨hb, hbar⟩
    · simp only [cueOf, hslice, ← spelling_eq]
      rfl
  · intro hin
    obtain ⟨kind, effect, fields, h, hc⟩ := hin
    obtain ⟨before, rest, ht, hstart, hstop⟩ :=
      (Text.slice_eq_iff (spelling_ne_nil _ _ _) h.inside).mp h.spelled
    obtain ⟨hb, hbar⟩ := (isField_iff_body kind effect fields).mp h.isField
    refine ⟨before, kind ++ (effect :: fields).flatMap ('|' :: ·), rest, ?_, hb, ?_⟩
    · simp [ht, spelling_eq]
    · refine (cueOfBody?_eq_some_iff _ _ _).mpr
        ⟨kind, effect, fields, Text.splitOn_eq_cons_iff.mpr ⟨rfl, hbar⟩, h.kind_ne, h.effect_ne, ?_⟩
      have hslice := h.spelled
      rw [← hstop, ← hstart] at hslice
      rw [hc]
      simp only [cueOf, ← hstop, ← hstart, hslice, Nat.add_assoc before.length,
        ← spelling_length, ← spelling_eq]
      rfl

theorem cues_start_lt (t : Text) : (cues t).Pairwise fun c d => c.start < d.start :=
  (cues_ordered t).imp_of_mem fun hc _ h => Nat.lt_of_lt_of_le (start_lt_stop hc) h

theorem filter_span_eq {l : List Cue} (hl : l.Pairwise fun c d => c.start < d.start) {c : Cue}
    (hc : c ∈ l) : l.filter (fun d => d.start = c.start ∧ d.stop = c.stop) = [c] := by
  induction l with
  | nil => cases hc
  | cons d l ih =>
    obtain ⟨hd, hl⟩ := List.pairwise_cons.mp hl
    rcases List.mem_cons.mp hc with rfl | hc
    · have hrest : l.filter (fun d => d.start = c.start ∧ d.stop = c.stop) = [] := by
        rw [List.filter_eq_nil_iff]
        intro e he
        have := hd e he
        simp only [decide_eq_true_eq, not_and]
        omega
      rw [List.filter_cons_of_pos (by simp), hrest]
    · have := hd c hc
      rw [List.filter_cons_of_neg (by simp only [decide_eq_true_eq]; omega), ih hl hc]

/-- **The scanner accepts exactly the grammar.** Every cue of a text stands at a range of the
grammar; every range of the grammar is reported as one cue, with its parts trimmed and its
parameters inserted in order; and the cues come in the order of their offsets and are disjoint. -/
theorem cues_eq_grammar (t : Text) :
    (∀ c ∈ cues t, ∃ kind effect fields, CueAt t c.start c.stop kind effect fields) ∧
    (∀ start stop kind effect fields, CueAt t start stop kind effect fields →
      ∃ pairs, Params.Reads fields pairs ∧
        (cues t).filter (fun c => c.start = start ∧ c.stop = stop) =
          [cueOf t start stop kind effect pairs]) ∧
    (cues t).Pairwise fun c d => c.start < d.start ∧ c.stop ≤ d.start := by
  refine ⟨fun c hc => ?_, fun start stop kind effect fields h => ?_, ?_⟩
  · obtain ⟨kind, effect, fields, h, -⟩ := (mem_cues_iff_cueAt t c).mp hc
    exact ⟨kind, effect, fields, h⟩
  · refine ⟨_, (Params.reads_iff fields _).mpr rfl, ?_⟩
    have hc : cueOf t start stop kind effect (fields.filterMap Params.ofField?) ∈ cues t :=
      (mem_cues_iff_cueAt t _).mpr ⟨kind, effect, fields, h, rfl⟩
    exact filter_span_eq (cues_start_lt t) hc
  · exact (cues_start_lt t).and (cues_ordered t)

/-- A range behind a stray bracket, with a key that comes twice and a field that is no parameter. -/
theorem repeated_key_reported :
    let t := ['a', '[', '[', 'c', 'u', 'e', ':', 'F', 'x', '|', 'g', '|', 'k', '=', '1', '|',
      '=', 'z', '|', 'k', '=', '2', ']', 'b']
    let fields := [['k', '=', '1'], ['=', 'z'], ['k', '=', '2']]
    CueAt t 2 23 ['F', 'x'] ['g'] fields ∧
      ∃ pairs, Params.Reads fields pairs ∧
        (cues t).filter (fun c => c.start = 2 ∧ c.stop = 23) =
          [cueOf t 2 23 ['F', 'x'] ['g'] pairs] := by
  intro t fields
  have h : CueAt t 2 23 ['F', 'x'] ['g'] fields :=
    ⟨by decide, by decide, by simp [fields, IsField], by decide, by decide⟩
  exact ⟨h, (cues_eq_grammar t).2.1 _ _ _ _ _ h⟩

end Markup

end CuedProse
