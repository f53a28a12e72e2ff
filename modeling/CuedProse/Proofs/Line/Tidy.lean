import CuedProse.Proofs.Line.Ink

/-!
# Tidy prose

Tidying has a normal form, and its beginning can be told from the text without tidying it.

* `IsTidy`: no closing bracket, no two spaces side by side, no space in front of closing
  punctuation.
* `tidy_eq_self_iff`: the texts that tidying leaves alone are the tidy ones.
* `head_tidy`: it begins with closing punctuation if the first ink does, and else with a space if
  there is one in front of the first ink.
* `tidyFrom_append_tidyFrom`: in front of more text, a tidied text does what the text itself does.
* `tidy_normal_form`: so tidying is a normal form, and a text may be tidied in pieces first.
-/
namespace CuedProse.Line

open Glyph

/-! ## The normal form -/

/-- No two horizontal spaces stand side by side. -/
def SpacesApart (t : Text) : Prop :=
  t.IsChain fun a b => ¬ (isHorizontalSpace a = true ∧ isHorizontalSpace b = true)

/-- No horizontal space stands in front of closing punctuation. -/
def ClosingJoined (t : Text) : Prop :=
  t.IsChain fun a b => ¬ (isHorizontalSpace a = true ∧ isClosing b = true)

/-- What tidying makes of a text. -/
structure IsTidy (t : Text) : Prop where
  unbracketed : ']' ∉ t
  apart : SpacesApart t
  joined : ClosingJoined t

namespace IsTidy

theorem nil : IsTidy [] := ⟨by simp, .nil, .nil⟩

theorem single {c : Char} (h : c ≠ ']') : IsTidy [c] :=
  ⟨by simpa using h.symm, .singleton c, .singleton c⟩

theorem cons_ink {c : Char} {t : Text} (h : IsTidy t) (hc : c ≠ ']')
    (hspace : isHorizontalSpace c = false) : IsTidy (c :: t) where
  unbracketed := by simpa using ⟨hc.symm, h.unbracketed⟩
  apart := List.isChain_cons.mpr ⟨fun _ _ => by simp [hspace], h.apart⟩
  joined := List.isChain_cons.mpr ⟨fun _ _ => by simp [hspace], h.joined⟩

theorem cons_space {a c : Char} {t : Text} (h : IsTidy (c :: t)) (ha : a ≠ ']')
    (hspace : isHorizontalSpace c = false) (hclosing : isClosing c = false) :
    IsTidy (a :: c :: t) where
  unbracketed := by simpa using ⟨ha.symm, by simpa using h.unbracketed⟩
  apart := List.isChain_cons_cons.mpr ⟨by simp [hspace], h.apart⟩
  joined := List.isChain_cons_cons.mpr ⟨by simp [hclosing], h.joined⟩

theorem tail {c : Char} {t : Text} (h : IsTidy (c :: t)) : IsTidy t where
  unbracketed hmem := h.unbracketed (List.mem_cons_of_mem c hmem)
  apart := h.apart.tail
  joined := h.joined.tail

end IsTidy

theorem ne_bracket_of_isHorizontalSpace {c : Char} (h : isHorizontalSpace c = true) : c ≠ ']' := by
  intro hc
  have hbracket : isHorizontalSpace ']' = false := by decide
  rw [hc, hbracket] at h
  cases h

theorem isHorizontalSpace_of_mem_none : ∀ c ∈ (none : Option Char), isHorizontalSpace c = true := by
  simp

theorem isHorizontalSpace_of_held {held : Option Char} {c : Char}
    (hheld : ∀ d ∈ held, isHorizontalSpace d = true) (hc : isHorizontalSpace c = true) :
    ∀ d ∈ some (held.getD c), isHorizontalSpace d = true := by
  cases held with
  | none => simpa using hc
  | some a => exact hheld

/-- Tidying leaves tidy prose, whatever space is held. -/
theorem isTidy_tidyFrom {held : Option Char} (hheld : ∀ c ∈ held, isHorizontalSpace c = true)
    (t : Text) : IsTidy (tidyFrom held t) := by
  fun_induction tidyFrom held t with
  | case1 held =>
    cases held with
    | none => exact .nil
    | some a => exact .single (ne_bracket_of_isHorizontalSpace (hheld a rfl))
  | case2 held t ih => exact ih hheld
  | case3 held c t hc hspace ih => exact ih (isHorizontalSpace_of_held hheld hspace)
  | case4 held c t hc hspace hclosing ih =>
    rw [Bool.not_eq_true] at hspace
    exact (ih (by simp)).cons_ink hc hspace
  | case5 held c t hc hspace hclosing ih =>
    rw [Bool.not_eq_true] at hspace hclosing
    have hrest : IsTidy (c :: tidyFrom none t) := (ih (by simp)).cons_ink hc hspace
    cases held with
    | none => exact hrest
    | some a =>
      exact hrest.cons_space (ne_bracket_of_isHorizontalSpace (hheld a rfl)) hspace hclosing

theorem isTidy_tidy (t : Text) : IsTidy (tidy t) := isTidy_tidyFrom isHorizontalSpace_of_mem_none t

/-- Tidying finds nothing to do in tidy prose; a held space is a part of it. -/
theorem tidyFrom_eq_self {held : Option Char} (hheld : ∀ c ∈ held, isHorizontalSpace c = true)
    {t : Text} (h : IsTidy (held.toList ++ t)) : tidyFrom held t = held.toList ++ t := by
  fun_induction tidyFrom held t with
  | case1 held => rw [List.append_nil]
  | case2 held t ih => exact absurd (by simp) h.unbracketed
  | case3 held c t hc hspace ih =>
    cases held with
    | none => exact ih (isHorizontalSpace_of_held hheld hspace) h
    | some a => exact absurd ⟨hheld a rfl, hspace⟩ (List.isChain_cons_cons.mp h.apart).1
  | case4 held c t hc hspace hclosing ih =>
    cases held with
    | none => rw [ih (by simp) h.tail]; rfl
    | some a => exact absurd ⟨hheld a rfl, hclosing⟩ (List.isChain_cons_cons.mp h.joined).1
  | case5 held c t hc hspace hclosing ih =>
    have hrest : IsTidy (c :: t) := by
      cases held with
      | none => exact h
      | some a => exact h.tail
    rw [ih (by simp) hrest.tail]
    rfl

theorem tidy_eq_self_iff (t : Text) : tidy t = t ↔ IsTidy t := by
  constructor
  · intro h
    exact h ▸ isTidy_tidy t
  · exact tidyFrom_eq_self isHorizontalSpace_of_mem_none

/-! ## How a tidied text begins -/

/-- Whether the first ink of `t` is closing punctuation. -/
def opensClosing (t : Text) : Bool := (ink t).head?.any isClosing

/-- Whether there is horizontal space in front of the ink of `t`. -/
def opensSpaced (t : Text) : Bool :=
  (t.takeWhile fun c => c = ']' || isHorizontalSpace c).any isHorizontalSpace

theorem mem_closing {c : Char} (h : isClosing c = true) :
    c = '.' ∨ c = ',' ∨ c = ';' ∨ c = ':' ∨ c = '!' ∨ c = '?' ∨ c = '…' := by
  simpa [isClosing] using h

theorem isHorizontalSpace_of_isClosing {c : Char} (h : isClosing c = true) :
    isHorizontalSpace c = false := by
  rcases mem_closing h with h | h | h | h | h | h | h <;> rw [h] <;> decide

theorem isClosing_of_isHorizontalSpace {c : Char} (h : isHorizontalSpace c = true) :
    isClosing c = false := by
  cases hclosing : isClosing c with
  | false => rfl
  | true => rw [← h, isHorizontalSpace_of_isClosing hclosing]

theorem isClosing_of_isLetter {c : Char} (h : isLetter c = true) : isClosing c = false := by
  cases hc : isClosing c with
  | false => rfl
  | true =>
    have hnone : isLetter c = false := by
      rcases mem_closing hc with h | h | h | h | h | h | h <;> rw [h] <;> decide +kernel
    rw [hnone] at h
    cases h

section
variable {c : Char} (t : Text)

theorem opensClosing_bracket : opensClosing (']' :: t) = opensClosing t := by
  simp [opensClosing, ink]

theorem opensClosing_space (h : isHorizontalSpace c = true) :
    opensClosing (c :: t) = opensClosing t := by
  simp [opensClosing, ink, h]

theorem opensClosing_ink (hc : c ≠ ']') (h : isHorizontalSpace c = false) :
    opensClosing (c :: t) = isClosing c := by
  simp [opensClosing, ink, hc, h]

theorem opensSpaced_bracket : opensSpaced (']' :: t) = opensSpaced t := by
  have hbracket : isHorizontalSpace ']' = false := by decide
  simp [opensSpaced, hbracket]

theorem opensSpaced_space (h : isHorizontalSpace c = true) : opensSpaced (c :: t) = true := by
  simp [opensSpaced, h]

theorem opensSpaced_ink (hc : c ≠ ']') (h : isHorizontalSpace c = false) :
    opensSpaced (c :: t) = false := by
  simp [opensSpaced, hc, h]

end

/-- A tidied text begins with closing punctuation if its ink does, and else with a space if one is
held or stands in front of its ink. -/
theorem head_tidyFrom {held : Option Char} (hheld : ∀ c ∈ held, isHorizontalSpace c = true)
    (t : Text) :
    (tidyFrom held t).head?.any isClosing = opensClosing t ∧
      (tidyFrom held t).head?.any isHorizontalSpace =
        ((held.isSome || opensSpaced t) && !opensClosing t) := by
  have hopen : ∀ c ∈ held, isClosing c = false := fun c hc =>
    isClosing_of_isHorizontalSpace (hheld c hc)
  fun_induction tidyFrom held t with
  | case1 held =>
    cases held with
    | none => exact ⟨rfl, rfl⟩
    | some a => simp [opensClosing, hopen a rfl, hheld a rfl]
  | case2 held t ih =>
    rw [opensClosing_bracket, opensSpaced_bracket]
    exact ih hheld hopen
  | case3 held c t hc hspace ih =>
    have hheld' := isHorizontalSpace_of_held hheld hspace
    have hnext := ih hheld' fun d hd => isClosing_of_isHorizontalSpace (hheld' d hd)
    rw [opensClosing_space t hspace, opensSpaced_space t hspace, Bool.or_true]
    exact hnext
  | case4 held c t hc hspace hclosing ih =>
    rw [Bool.not_eq_true] at hspace
    rw [opensClosing_ink t hc hspace]
    simp [hclosing, hspace]
  | case5 held c t hc hspace hclosing ih =>
    rw [Bool.not_eq_true] at hspace hclosing
    rw [opensClosing_ink t hc hspace, opensSpaced_ink t hc hspace]
    cases held with
    | none => simp [hclosing, hspace]
    | some a => simp [hopen a rfl, hheld a rfl, hclosing]

theorem head_tidy (t : Text) :
    (tidy t).head?.any isClosing = opensClosing t ∧
      (tidy t).head?.any isHorizontalSpace = (opensSpaced t && !opensClosing t) :=
  head_tidyFrom isHorizontalSpace_of_mem_none t

/-! ## Tidying in pieces -/

section
variable {held waiting : Option Char} {c : Char}

theorem tidyFrom_space (h : isHorizontalSpace c = true) (t : Text) :
    tidyFrom held (c :: t) = tidyFrom (some (held.getD c)) t := by
  rw [tidyFrom, if_neg (ne_bracket_of_isHorizontalSpace h), if_pos h]

theorem tidyFrom_ink (hc : c ≠ ']') (h : isHorizontalSpace c = false) (t : Text) :
    tidyFrom held (c :: t) =
      (if isClosing c then [] else held.toList) ++ c :: tidyFrom none t := by
  rw [tidyFrom, if_neg hc, h, if_neg (by decide)]
  split <;> rfl

/-- A space that one piece leaves at its end is held when the next one begins. -/
theorem tidyFrom_toList_append (hwaiting : ∀ d ∈ waiting, isHorizontalSpace d = true) (t : Text) :
    tidyFrom held (waiting.toList ++ t) = tidyFrom (held.or waiting) t := by
  cases waiting with
  | none => rw [Option.or_none]; rfl
  | some d =>
    rw [Option.toList_some, List.singleton_append, tidyFrom_space (hwaiting d rfl)]
    cases held <;> rfl

/-- A tidied text in front of `u` does what the text itself would do: all that tidying has to know
of it at the join is the space at its end. -/
theorem tidyFrom_append_tidyFrom (hwaiting : ∀ d ∈ waiting, isHorizontalSpace d = true)
    (t u : Text) :
    tidyFrom held (tidyFrom waiting t ++ u) = tidyFrom (held.or waiting) (t ++ u) := by
  fun_induction tidyFrom waiting t generalizing held with
  | case1 waiting => exact tidyFrom_toList_append hwaiting u
  | case2 waiting t ih =>
    rw [ih hwaiting, List.cons_append, tidyFrom, if_pos rfl]
  | case3 waiting c t hc hspace ih =>
    rw [ih (isHorizontalSpace_of_held hwaiting hspace), List.cons_append, tidyFrom_space hspace]
    cases held <;> cases waiting <;> rfl
  | case4 waiting c t hc hspace hclosing ih =>
    rw [Bool.not_eq_true] at hspace
    rw [List.cons_append, List.cons_append, tidyFrom_ink hc hspace, tidyFrom_ink hc hspace,
      if_pos hclosing, if_pos hclosing, ih (by simp), Option.or_none]
  | case5 waiting c t hc hspace hclosing ih =>
    rw [Bool.not_eq_true] at hspace
    rw [List.append_assoc, tidyFrom_toList_append hwaiting, List.cons_append, List.cons_append,
      tidyFrom_ink hc hspace, tidyFrom_ink hc hspace, ih (by simp), Option.or_none]

theorem tidyFrom_append_tidy (t u : Text) : tidyFrom held (t ++ tidy u) = tidyFrom held (t ++ u) := by
  induction t generalizing held with
  | nil =>
    have htidied : tidyFrom held (tidyFrom none u ++ []) = tidyFrom (held.or none) (u ++ []) :=
      tidyFrom_append_tidyFrom isHorizontalSpace_of_mem_none u []
    rwa [Option.or_none, List.append_nil, List.append_nil] at htidied
  | cons c t ih => simp only [List.cons_append, tidyFrom, ih]

end

/-- **Tidying is a normal form, and it may be done in pieces.** A tidied text is tidy; it is the text
without some of its horizontal space and closing brackets, in the same order. The texts that tidying
leaves alone are the tidy ones, so tidying twice is tidying once. Two texts that are tidied, joined
and tidied again give what the joined text gives. -/
theorem tidy_normal_form (x y : Text) :
    IsTidy (tidy x) ∧ (tidy x).Sublist x ∧ ink (tidy x) = ink x ∧ (tidy x = x ↔ IsTidy x) ∧
      tidy (tidy x) = tidy x ∧ tidy (x ++ y) = tidy (tidy x ++ tidy y) := by
  have hkept := tidy_keepsInk x
  have hfirst : tidyFrom none (tidyFrom none x ++ y) = tidyFrom none (x ++ y) :=
    tidyFrom_append_tidyFrom isHorizontalSpace_of_mem_none x y
  refine ⟨isTidy_tidy x, hkept.sublist, hkept.ink_eq, tidy_eq_self_iff x,
    (tidy_eq_self_iff (tidy x)).mpr (isTidy_tidy x), ?_⟩
  calc tidy (x ++ y)
      = tidy (tidy x ++ y) := hfirst.symm
    _ = tidy (tidy x ++ tidy y) := (tidyFrom_append_tidy (tidy x) y).symm

/-- Two spaces meet at the join, with a bracket between them and a comma behind them. -/
example : tidy ("Hola ]".toList ++ " , mundo".toList) = "Hola, mundo".toList := by decide

end CuedProse.Line
