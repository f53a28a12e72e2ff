import CuedProse.Cue.Basic

/-!
# Cues and letters as they are read

Lines are read from left to right and one after the other, as a stream of cues and letters. A cue
belongs to the first letter behind it.

* `placed`: every cue of a stream with its letter (`placed_cues`).
* `settle`: the same found step by step: cues wait, and the next letter takes all of them.
* `settle_placed`: the two agree, in the order of the stream.
* `mem_settle_iff`: a letter takes cues just when it is the first one behind a cue.
-/
namespace CuedProse.Line

structure Letter where
  /-- In which of the lines, counted from zero. -/
  line : Nat
  /-- How much ink stands in front of it on its line. -/
  before : Nat
  /-- The whole cluster. -/
  glyph : Text
  deriving DecidableEq, Repr

def Letter.Before (l m : Letter) : Prop := l.line < m.line ∨ l.line = m.line ∧ l.before < m.before

/-- What is read. -/
inductive Token where
  | cue (c : Cue)
  | letter (l : Letter)
  deriving DecidableEq, Repr

namespace Token

def cue? : Token → Option Cue
  | cue c => some c
  | letter _ => none

def letter? : Token → Option Letter
  | cue _ => none
  | letter l => some l

end Token

/-- A letter with the cues that it shows. -/
structure Anchor where
  letter : Letter
  cues : List Cue
  deriving DecidableEq, Repr

/-- The cues of an anchor, each with its letter. -/
def Anchor.places (a : Anchor) : List (Cue × Option Letter) := a.cues.map fun c => (c, some a.letter)

def cuesOf (stream : List Token) : List Cue := stream.filterMap Token.cue?

def lettersOf (stream : List Token) : List Letter := stream.filterMap Token.letter?

def nextLetter? (stream : List Token) : Option Letter := stream.findSome? Token.letter?

/-- Every cue with the first letter behind it, if there is one. -/
def placed : List Token → List (Cue × Option Letter)
  | [] => []
  | .cue c :: rest => (c, nextLetter? rest) :: placed rest
  | .letter _ :: rest => placed rest

/-- Reads a stream while `waiting` are the cues that no letter has taken yet. The answer is the
letters that take cues, and the cues that wait in the end. -/
def settle (waiting : List Cue) : List Token → List Anchor × List Cue
  | [] => ([], waiting)
  | .cue c :: rest => settle (waiting ++ [c]) rest
  | .letter l :: rest =>
    if waiting = [] then settle [] rest
    else (⟨l, waiting⟩ :: (settle [] rest).1, (settle [] rest).2)

@[simp] theorem cuesOf_cue (c : Cue) (s : List Token) : cuesOf (.cue c :: s) = c :: cuesOf s := rfl

@[simp] theorem cuesOf_letter (l : Letter) (s : List Token) :
    cuesOf (.letter l :: s) = cuesOf s := rfl

@[simp] theorem lettersOf_cue (c : Cue) (s : List Token) :
    lettersOf (.cue c :: s) = lettersOf s := rfl

@[simp] theorem lettersOf_letter (l : Letter) (s : List Token) :
    lettersOf (.letter l :: s) = l :: lettersOf s := rfl

@[simp] theorem cuesOf_append (s s' : List Token) : cuesOf (s ++ s') = cuesOf s ++ cuesOf s' :=
  List.filterMap_append

@[simp] theorem lettersOf_append (s s' : List Token) :
    lettersOf (s ++ s') = lettersOf s ++ lettersOf s' := List.filterMap_append

@[simp] theorem cuesOf_map_cue (cues : List Cue) : cuesOf (cues.map .cue) = cues := by
  induction cues with
  | nil => rfl
  | cons c cues ih => simp [ih]

@[simp] theorem cuesOf_map_letter (letters : List Letter) : cuesOf (letters.map .letter) = [] := by
  induction letters with
  | nil => rfl
  | cons l letters ih => simp [ih]

@[simp] theorem lettersOf_map_cue (cues : List Cue) : lettersOf (cues.map .cue) = [] := by
  induction cues with
  | nil => rfl
  | cons c cues ih => simp [ih]

@[simp] theorem lettersOf_map_letter (letters : List Letter) :
    lettersOf (letters.map .letter) = letters := by
  induction letters with
  | nil => rfl
  | cons l letters ih => simp [ih]

theorem placed_cues (s : List Token) : (placed s).map Prod.fst = cuesOf s := by
  induction s with
  | nil => rfl
  | cons x s ih => cases x <;> simp [placed, ih]

/-! ## Settling step by step -/

/-- What follows goes on with the cues that wait. -/
theorem settle_append (waiting : List Cue) (s s' : List Token) :
    settle waiting (s ++ s') =
      ((settle waiting s).1 ++ (settle (settle waiting s).2 s').1,
        (settle (settle waiting s).2 s').2) := by
  induction s generalizing waiting with
  | nil => simp [settle]
  | cons x s ih =>
    cases x with
    | cue c => exact ih (waiting ++ [c])
    | letter l =>
      rw [List.cons_append, settle, settle]
      split
      · exact ih []
      · rw [ih []]
        rfl

theorem settle_map_cue (waiting cues : List Cue) :
    settle waiting (cues.map .cue) = ([], waiting ++ cues) := by
  induction cues generalizing waiting with
  | nil => simp [settle]
  | cons c cues ih =>
    rw [List.map_cons, settle, ih, List.append_assoc]
    rfl

theorem settle_map_letter (letters : List Letter) : settle [] (letters.map .letter) = ([], []) := by
  induction letters with
  | nil => rfl
  | cons l letters ih =>
    rw [List.map_cons, settle, if_pos rfl]
    exact ih

/-! ## What settling comes to -/

/-- Each cue goes to the first letter behind it, and the cues stay in order. -/
theorem settle_placed (waiting : List Cue) (s : List Token) :
    (settle waiting s).1.flatMap Anchor.places ++ (settle waiting s).2.map (fun c => (c, none)) =
      waiting.map (fun c => (c, nextLetter? s)) ++ placed s := by
  induction s generalizing waiting with
  | nil => simp [settle, placed, nextLetter?]
  | cons x s ih =>
    cases x with
    | cue c =>
      have hnext : nextLetter? (.cue c :: s) = nextLetter? s := rfl
      rw [settle, ih, placed, hnext, List.map_append, List.append_assoc]
      rfl
    | letter l =>
      have hnext : nextLetter? (.letter l :: s) = some l := rfl
      rw [settle, placed, hnext]
      split
      · rename_i hnil
        rw [ih, hnil]
        rfl
      · rw [List.flatMap_cons, List.append_assoc, ih]
        rfl

/-- Each letter takes cues once at most, and from left to right. -/
theorem settle_letters (waiting : List Cue) (s : List Token) :
    ((settle waiting s).1.map Anchor.letter).Sublist (lettersOf s) := by
  induction s generalizing waiting with
  | nil => exact .slnil
  | cons x s ih =>
    cases x with
    | cue c => exact ih (waiting ++ [c])
    | letter l =>
      rw [settle, lettersOf_letter]
      split
      · exact (ih []).cons l
      · exact (ih []).cons_cons l

theorem cues_ne_nil_of_mem_settle {waiting : List Cue} {s : List Token} {a : Anchor}
    (h : a ∈ (settle waiting s).1) : a.cues ≠ [] := by
  induction s generalizing waiting with
  | nil => cases h
  | cons x s ih =>
    cases x with
    | cue c => exact ih h
    | letter l =>
      rw [settle] at h
      split at h
      · exact ih h
      · rename_i hwaiting
        cases h with
        | head => exact hwaiting
        | tail _ h => exact ih h

/-- A letter takes cues just when it is the first one behind a cue. -/
theorem mem_settle_iff (s : List Token) (l : Letter) :
    (∃ a ∈ (settle [] s).1, a.letter = l) ↔ ∃ c, (c, some l) ∈ placed s := by
  have hplaced := settle_placed [] s
  rw [List.map_nil, List.nil_append] at hplaced
  rw [← hplaced]
  constructor
  · rintro ⟨a, ha, hl⟩
    obtain ⟨c, hc⟩ := List.exists_mem_of_ne_nil _ (cues_ne_nil_of_mem_settle ha)
    refine ⟨c, List.mem_append_left _ (List.mem_flatMap.mpr ⟨a, ha, ?_⟩)⟩
    rw [← hl]
    exact List.mem_map_of_mem hc
  · rintro ⟨c, hc⟩
    rcases List.mem_append.mp hc with hc | hc
    · obtain ⟨a, ha, hca⟩ := List.mem_flatMap.mp hc
      obtain ⟨d, -, hd⟩ := List.mem_map.mp hca
      exact ⟨a, ha, Option.some.inj (Prod.mk.inj hd).2⟩
    · obtain ⟨d, -, hd⟩ := List.mem_map.mp hc
      cases hd

end CuedProse.Line
