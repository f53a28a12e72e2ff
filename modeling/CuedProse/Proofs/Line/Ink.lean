import Mathlib.Data.List.Chain
import CuedProse.Line.Anchor
import CuedProse.Proofs.Glyph.Growth

/-!
# The ink of a line

Tidying takes horizontal space and closing brackets out of prose. What it may not touch is the ink
of a text: everything else.

* `KeepsInk`: one text is another one without some of its space and brackets, in the same order.
* `tidy_keepsInk`, `addProse_keepsInk`: tidying keeps the ink, and so does joining tidy prose.
* `Builder.addProse_cases`: what adding prose can do.
* `Builder.keepsInk_add`: a piece of a line adds its ink to what is shown; `keepsInk_foldl` is the
  same for all pieces.
* `Builder.built_foldl`: what adding prose and markers to a line keeps holds of the whole line.
* `Builder.wellBuilt_foldl`: no fragment is empty prose, and no two prose fragments stand side by
  side.
-/
namespace CuedProse

open Glyph

namespace Line

/-- `t` without horizontal space and closing brackets. -/
def ink (t : Text) : Text := t.filter fun c => c != ']' && !isHorizontalSpace c

@[simp] theorem ink_nil : ink [] = [] := rfl

@[simp] theorem ink_append (t u : Text) : ink (t ++ u) = ink t ++ ink u := List.filter_append ..

theorem ink_eq_nil {t : Text} (h : ∀ c ∈ t, c = ']' ∨ isHorizontalSpace c = true) : ink t = [] := by
  unfold ink
  rw [List.filter_eq_nil_iff]
  intro c hc
  rcases h c hc with hbracket | hspace
  · simp [hbracket]
  · simp [hspace]

theorem ink_mono {t u : Text} (h : t <+: u) : ink t <+: ink u := h.filter _

theorem isLetter_bracket : isLetter ']' = false := by decide +kernel

theorem ne_bracket_of_isLetter {c : Char} (h : isLetter c = true) : c ≠ ']' := by
  intro hc
  rw [hc, isLetter_bracket] at h
  cases h

theorem isHorizontalSpace_of_isLetter {c : Char} (h : isLetter c = true) :
    isHorizontalSpace c = false := by
  cases hc : isSpace c with
  | true =>
    rw [isLetter_of_isSpace hc] at h
    cases h
  | false => simp [isHorizontalSpace, hc]

theorem ink_cons_of_isLetter {c : Char} (h : isLetter c = true) (t : Text) :
    ink (c :: t) = c :: ink t := by
  simp [ink, ne_bracket_of_isLetter h, isHorizontalSpace_of_isLetter h]

/-- `t` is `u` without some of its horizontal space and closing brackets. -/
structure KeepsInk (t u : Text) : Prop where
  sublist : t.Sublist u
  ink_eq : ink t = ink u

namespace KeepsInk

variable {t u v w : Text}

theorem refl (t : Text) : KeepsInk t t := ⟨List.Sublist.refl t, rfl⟩

theorem trans (h : KeepsInk t u) (h' : KeepsInk u v) : KeepsInk t v :=
  ⟨h.sublist.trans h'.sublist, h.ink_eq.trans h'.ink_eq⟩

theorem append (h : KeepsInk t u) (h' : KeepsInk v w) : KeepsInk (t ++ v) (u ++ w) :=
  ⟨h.sublist.append h'.sublist, by rw [ink_append, ink_append, h.ink_eq, h'.ink_eq]⟩

theorem nil (h : ∀ c ∈ t, c = ']' ∨ isHorizontalSpace c = true) : KeepsInk [] t :=
  ⟨List.nil_sublist t, (ink_eq_nil h).symm⟩

end KeepsInk

/-! ## Tidying -/

theorem tidyFrom_keepsInk {held : Option Char} (hheld : ∀ c ∈ held, isHorizontalSpace c = true)
    (t : Text) : KeepsInk (tidyFrom held t) (held.toList ++ t) := by
  -- what is held is space, so it may be left out
  have hdrop : KeepsInk [] held.toList :=
    .nil fun c hc => .inr (hheld c (Option.mem_toList.mp hc))
  induction t generalizing held with
  | nil =>
    rw [tidyFrom, List.append_nil]
    exact .refl _
  | cons c t ih =>
    have hnone : KeepsInk (tidyFrom none t) t := ih (by simp) (.nil (by simp))
    unfold tidyFrom
    split
    · rename_i hc
      have hbracket : KeepsInk [] [c] := .nil fun d hd => .inl ((List.mem_singleton.mp hd).trans hc)
      exact (ih hheld hdrop).trans ((KeepsInk.refl _).append (hbracket.append (.refl t)))
    · split
      · rename_i hspace
        have hblank : KeepsInk [] [c] := .nil fun d hd => .inr (List.mem_singleton.mp hd ▸ hspace)
        cases held with
        | none => exact ih (by simpa using hspace) (by simpa using hblank)
        | some e => exact (ih hheld hdrop).trans ((KeepsInk.refl _).append (hblank.append (.refl t)))
      · split
        · exact hdrop.append ((KeepsInk.refl [c]).append hnone)
        · exact (KeepsInk.refl _).append ((KeepsInk.refl [c]).append hnone)

theorem tidy_keepsInk (t : Text) : KeepsInk (tidy t) t := tidyFrom_keepsInk (by simp) t

theorem dropSpaceEnd_keepsInk (t : Text) : KeepsInk (dropSpaceEnd t) t := by
  have hsplit := List.takeWhile_append_dropWhile (p := isHorizontalSpace) (l := t.reverse)
  have hreverse : dropSpaceEnd t ++ (t.reverse.takeWhile isHorizontalSpace).reverse = t := by
    rw [dropSpaceEnd, ← List.reverse_append, hsplit, List.reverse_reverse]
  have hspace : KeepsInk [] (t.reverse.takeWhile isHorizontalSpace).reverse :=
    .nil fun c hc => .inr (List.all_eq_true.mp List.all_takeWhile c (List.mem_reverse.mp hc))
  have hall := (KeepsInk.refl (dropSpaceEnd t)).append hspace
  rwa [List.append_nil, hreverse] at hall

/-! ## Fragments -/

def plain (built : List Fragment) : Text := built.reverse.flatMap Fragment.text

@[simp] theorem plain_nil : plain [] = [] := rfl

@[simp] theorem plain_cons (f : Fragment) (built : List Fragment) :
    plain (f :: built) = plain built ++ f.text := by
  simp [plain, List.flatMap_append]

theorem addProse_keepsInk (built : List Fragment) (t : Text) :
    KeepsInk (plain (addProse built t)) (plain built ++ t) := by
  have htidy := tidy_keepsInk t
  unfold addProse
  split
  · rename_i built _ _ hnil
    rw [hnil] at htidy
    have hall := (KeepsInk.refl (plain built)).append htidy
    rwa [List.append_nil] at hall
  · rename_i c rest earlier before hcons
    rw [hcons] at htidy
    have hearlier : KeepsInk (if isClosing c then dropSpaceEnd earlier else earlier) earlier := by
      split
      · exact dropSpaceEnd_keepsInk earlier
      · exact .refl earlier
    rw [plain_cons, plain_cons, List.append_assoc]
    exact (KeepsInk.refl _).append (hearlier.append htidy)
  · rename_i c rest hcons _
    rw [hcons] at htidy
    rw [plain_cons]
    exact (KeepsInk.refl _).append htidy

/-- No fragment is empty prose, and no two prose fragments stand side by side. -/
structure WellBuilt (fragments : List Fragment) : Prop where
  nonempty : Fragment.prose [] ∉ fragments
  apart : fragments.IsChain fun f g => f.group?.isSome ∨ g.group?.isSome

theorem WellBuilt.nil : WellBuilt [] := ⟨by simp, .nil⟩

theorem WellBuilt.reverse {fragments : List Fragment} (h : WellBuilt fragments) :
    WellBuilt fragments.reverse := by
  refine ⟨fun hmem => h.nonempty (List.mem_reverse.mp hmem), List.isChain_reverse.mpr ?_⟩
  exact h.apart.imp fun f g hfg => hfg.symm

theorem WellBuilt.marker {built : List Fragment} (h : WellBuilt built) (glyph : Text) (g : Group) :
    WellBuilt (.marker glyph g :: built) := by
  refine ⟨by simpa using h.nonempty, ?_⟩
  exact List.isChain_cons.mpr ⟨fun f _ => .inl rfl, h.apart⟩

theorem WellBuilt.addProse {built : List Fragment} (h : WellBuilt built) (t : Text) :
    WellBuilt (Line.addProse built t) := by
  unfold Line.addProse
  split
  · exact h
  · rename_i c rest earlier before _
    obtain ⟨hfirst, hchain⟩ := List.isChain_cons.mp h.apart
    refine ⟨?_, List.isChain_cons.mpr ⟨fun f hf => ?_, hchain⟩⟩
    · have hbefore := h.nonempty
      simp only [List.mem_cons, not_or] at hbefore ⊢
      exact ⟨by simp, hbefore.2⟩
    · exact hfirst f hf
  · rename_i c rest _ hlast
    refine ⟨?_, List.isChain_cons.mpr ⟨fun f hf => ?_, h.apart⟩⟩
    · simpa using h.nonempty
    · -- the line ends with a marker, or the prose would have joined the prose at its end
      cases f with
      | marker glyph g => exact .inr rfl
      | prose earlier =>
        obtain ⟨before, hbuilt⟩ := List.head?_eq_some_iff.mp hf
        exact absurd hbuilt (hlast earlier before)

namespace Builder

theorem dropDoubled_keepsInk (b : Builder) (t : Text) : KeepsInk (b.dropDoubled t) t := by
  unfold dropDoubled
  split
  · split
    · rename_i c rest
      split
      · rename_i hspace
        have hblank : KeepsInk [] [c] := .nil fun d hd => .inr (List.mem_singleton.mp hd ▸ hspace)
        exact hblank.append (.refl rest)
      · exact .refl _
    · exact .refl _
  · exact .refl _

/-- All that adding prose can do: it stays prose if no group waits or there is no letter in it, and
else its first letter takes the group that waits. -/
theorem addProse_cases (b : Builder) (t : Text) :
    (b.pending = none ∨ splitAtLetter? (b.dropDoubled t) = none) ∧
        b.addProse t = { b with built := Line.addProse b.built (b.dropDoubled t) } ∨
      ∃ g s, b.pending = some g ∧ splitAtLetter? (b.dropDoubled t) = some s ∧
        b.addProse t =
          { b with
            pending := none
            built := Line.addProse (.marker s.glyph g :: Line.addProse b.built s.before) s.after } := by
  cases hp : b.pending with
  | none => exact .inl ⟨.inl rfl, by simp [addProse, hp]⟩
  | some g =>
    cases hs : splitAtLetter? (b.dropDoubled t) with
    | none => exact .inl ⟨.inr rfl, by simp [addProse, hp, hs]⟩
    | some s => exact .inr ⟨g, s, rfl, rfl, by simp [addProse, hp, hs]⟩

theorem keepsInk_addProse (b : Builder) (t : Text) :
    KeepsInk (plain (b.addProse t).built) (plain b.built ++ t) := by
  refine KeepsInk.trans ?_ ((KeepsInk.refl _).append (b.dropDoubled_keepsInk t))
  obtain ⟨-, hadd⟩ | ⟨g, s, -, hs, hadd⟩ := b.addProse_cases t
  · rw [hadd]
    exact addProse_keepsInk b.built _
  · have hbefore := addProse_keepsInk b.built s.before
    have hafter := addProse_keepsInk (.marker s.glyph g :: Line.addProse b.built s.before) s.after
    rw [hadd]
    refine hafter.trans ?_
    rw [(splitAtLetter?_spec hs).1, plain_cons, List.append_assoc, List.append_assoc,
      ← List.append_assoc (plain b.built)]
    exact hbefore.append (.refl _)

end Builder

end Line

namespace Markup

def Piece.text : Piece → Text
  | .prose t => t
  | .cues _ => []

end Markup

namespace Line.Builder

/-- One step: a piece adds the ink of its prose. -/
theorem keepsInk_add (start : Nat) (b : Builder) (p : Markup.Piece) :
    KeepsInk (plain (b.add start p).built) (plain b.built ++ p.text) := by
  cases p with
  | prose t => exact b.keepsInk_addProse t
  | cues g =>
    have hbuilt : plain b.built ++ (Markup.Piece.cues g).text = plain b.built := List.append_nil _
    rw [hbuilt]
    exact .refl _

theorem keepsInk_foldl (start : Nat) (b : Builder) (pieces : List Markup.Piece) :
    KeepsInk (plain (pieces.foldl (add start) b).built)
      (plain b.built ++ pieces.flatMap Markup.Piece.text) := by
  induction pieces generalizing b with
  | nil =>
    rw [List.flatMap_nil, List.append_nil]
    exact .refl _
  | cons p pieces ih =>
    rw [List.foldl_cons, List.flatMap_cons, ← List.append_assoc]
    exact (ih _).trans ((keepsInk_add start b p).append (.refl _))

/-- What prose and markers keep holds of all fragments of a line. -/
theorem built_foldl {P : List Fragment → Prop}
    (hprose : ∀ built t, P built → P (Line.addProse built t))
    (hmarker : ∀ built glyph g, P built → P (.marker glyph g :: built)) (start : Nat) {b : Builder}
    (h : P b.built) (pieces : List Markup.Piece) : P (pieces.foldl (add start) b).built := by
  induction pieces generalizing b with
  | nil => exact h
  | cons p pieces ih =>
    refine ih ?_
    cases p with
    | cues g => exact h
    | prose t =>
      rw [add]
      obtain ⟨-, hadd⟩ | ⟨g, s, -, -, hadd⟩ := b.addProse_cases t
      · rw [hadd]
        exact hprose _ _ h
      · rw [hadd]
        exact hprose _ _ (hmarker _ _ _ (hprose _ _ h))

theorem wellBuilt_foldl (start : Nat) {b : Builder} (h : WellBuilt b.built)
    (pieces : List Markup.Piece) : WellBuilt (pieces.foldl (add start) b).built :=
  built_foldl (fun _ t h => h.addProse t) (fun _ glyph g h => h.marker glyph g) start h pieces

end Line.Builder

end CuedProse
