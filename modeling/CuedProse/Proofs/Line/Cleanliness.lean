import CuedProse.Line.Anchor
import CuedProse.Proofs.Glyph.Clusters
import CuedProse.Proofs.Markup.Unfinished

/-!
# What a line shows

Prose is tidied before it is shown, and tidying removes every closing bracket. The glyph of a marker
is shown as it is.

* `mem_tidyFrom`: tidying adds nothing and leaves no closing bracket.
* `Fragment.CleanIn`: the invariant of the fragments of a line; `Builder.clean_add` is its step.
* `render_clean`: it holds of every rendered line.
* `bracket_mem_plain_iff`: a closing bracket is shown if a marker has a prepended letter and the
  bracket behind it for its glyph, and only then.
-/
namespace CuedProse

open Glyph

/-- The fragment shows characters of `text`: prose without closing brackets, or a letter with its
cluster. -/
def Fragment.CleanIn (text : Text) : Fragment → Prop
  | .prose t => ∀ c ∈ t, c ∈ text ∧ c ≠ ']'
  | .marker glyph _ => IsLetterGlyph glyph ∧ glyph <:+: text

/-- The glyph of some marker begins with prepended letters and a closing bracket behind them. -/
def RenderedLine.TakesBracket (l : RenderedLine) : Prop :=
  ∃ lead tail group, Fragment.marker (lead ++ ']' :: tail) group ∈ l.fragments ∧
    isLetterCluster lead = true ∧ ∀ c ∈ lead, Break.ofChar c = .leading

namespace Markup

theorem prose_infix_of_mem {t u : Text} {cursor : Nat} {groups : List Group}
    (h : Piece.prose u ∈ piecesFrom t cursor groups) : u <:+: t := by
  induction groups generalizing cursor with
  | nil =>
    have hu := List.mem_singleton.mp h
    cases hu
    exact (List.drop_suffix cursor t).isInfix
  | cons g groups ih =>
    rw [piecesFrom, List.mem_cons, List.mem_cons] at h
    rcases h with h | h | h
    · cases h
      exact (List.drop_suffix _ _).isInfix.trans (List.take_prefix _ _).isInfix
    · cases h
    · exact ih h

end Markup

namespace Line

theorem mem_tidyFrom {held : Option Char} {t : Text} {c : Char} (h : c ∈ tidyFrom held t) :
    held = some c ∨ (c ∈ t ∧ c ≠ ']') := by
  induction t generalizing held with
  | nil =>
    rw [tidyFrom, Option.mem_toList] at h
    exact .inl h
  | cons d t ih =>
    have hrest : ∀ held', c ∈ tidyFrom held' t → held' = some c ∨ (c ∈ d :: t ∧ c ≠ ']') := by
      intro held' h'
      exact (ih h').imp_right fun hc => ⟨List.mem_cons_of_mem _ hc.1, hc.2⟩
    have hnone : c ∈ tidyFrom none t → c ∈ d :: t ∧ c ≠ ']' := by
      intro h'
      exact (hrest none h').resolve_left (by simp)
    unfold tidyFrom at h
    split at h
    · exact hrest held h
    · rename_i hd
      split at h
      · cases held with
        | none =>
          rcases hrest _ h with heq | hc
          · cases heq
            exact .inr ⟨List.mem_cons_self .., hd⟩
          · exact .inr hc
        | some e => exact hrest _ h
      · split at h
        · rcases List.mem_cons.mp h with hc | hc
          · rw [hc]
            exact .inr ⟨List.mem_cons_self .., hd⟩
          · exact .inr (hnone hc)
        · rw [List.mem_append, Option.mem_toList] at h
          rcases h with hheld | h
          · exact .inl hheld
          · rcases List.mem_cons.mp h with hc | hc
            · rw [hc]
              exact .inr ⟨List.mem_cons_self .., hd⟩
            · exact .inr (hnone hc)

theorem mem_tidy {t : Text} {c : Char} (h : c ∈ tidy t) : c ∈ t ∧ c ≠ ']' :=
  (mem_tidyFrom h).resolve_left (by simp)

theorem mem_of_mem_dropSpaceEnd {t : Text} {c : Char} (h : c ∈ dropSpaceEnd t) : c ∈ t := by
  unfold dropSpaceEnd at h
  rw [List.mem_reverse] at h
  exact List.mem_reverse.mp ((List.dropWhile_sublist _).subset h)

variable {text : Text}

theorem clean_addProse {built : List Fragment} {t : Text} (hb : ∀ f ∈ built, f.CleanIn text)
    (ht : ∀ c ∈ t, c ∈ text) : ∀ f ∈ addProse built t, f.CleanIn text := by
  have htidy : ∀ c ∈ tidy t, c ∈ text ∧ c ≠ ']' := by
    intro c hc
    obtain ⟨hmem, hne⟩ := mem_tidy hc
    exact ⟨ht c hmem, hne⟩
  unfold addProse
  split
  · exact hb
  · rename_i c rest earlier before hc
    rw [hc] at htidy
    intro f hf
    rcases List.mem_cons.mp hf with hf | hf
    · -- what was there before may lose the space at its end
      have hearlier := hb _ (List.mem_cons_self ..)
      rw [hf]
      intro d hd
      rcases List.mem_append.mp hd with hd | hd
      · refine hearlier d ?_
        split at hd
        · exact mem_of_mem_dropSpaceEnd hd
        · exact hd
      · exact htidy d hd
    · exact hb f (List.mem_cons_of_mem _ hf)
  · rename_i c rest hc _
    rw [hc] at htidy
    intro f hf
    rcases List.mem_cons.mp hf with hf | hf
    · rw [hf]
      exact htidy
    · exact hb f hf

namespace Builder

theorem dropDoubled_suffix (b : Builder) (t : Text) : b.dropDoubled t <:+ t := by
  unfold dropDoubled
  split
  · split
    · split
      · exact List.suffix_cons _ _
      · exact List.suffix_refl _
    · exact List.suffix_refl _
  · exact List.suffix_refl _

theorem clean_addProse {b : Builder} {t : Text} (hb : ∀ f ∈ b.built, f.CleanIn text)
    (ht : t <:+: text) : ∀ f ∈ (b.addProse t).built, f.CleanIn text := by
  have hdropped := (b.dropDoubled_suffix t).isInfix.trans ht
  unfold addProse
  dsimp only
  generalize b.dropDoubled t = t at hdropped
  cases b.pending with
  | none => exact Line.clean_addProse hb hdropped.subset
  | some g =>
    cases hs : splitAtLetter? t with
    | none => exact Line.clean_addProse hb hdropped.subset
    | some s =>
      obtain ⟨hsplit, hglyph⟩ := splitAtLetter?_spec hs
      have hinfix : s.glyph <:+: text := by
        refine List.IsInfix.trans ?_ hdropped
        rw [hsplit]
        exact List.infix_append _ _ _
      refine Line.clean_addProse (fun f hf => ?_) fun c hc => hdropped.subset (by simp [hsplit, hc])
      rcases List.mem_cons.mp hf with hf | hf
      · rw [hf]
        exact ⟨hglyph, hinfix⟩
      · exact Line.clean_addProse hb (fun c hc => hdropped.subset (by simp [hsplit, hc])) f hf

/-- One step: a piece of the text adds clean fragments. -/
theorem clean_add (start : Nat) {b : Builder} {p : Markup.Piece}
    (hb : ∀ f ∈ b.built, f.CleanIn text) (hp : ∀ t, p = .prose t → t <:+: text) :
    ∀ f ∈ (b.add start p).built, f.CleanIn text := by
  cases p with
  | prose t => exact clean_addProse hb (hp t rfl)
  | cues g => exact hb

theorem clean_foldl (start : Nat) {pieces : List Markup.Piece} {b : Builder}
    (hb : ∀ f ∈ b.built, f.CleanIn text) (hp : ∀ t, .prose t ∈ pieces → t <:+: text) :
    ∀ f ∈ (pieces.foldl (add start) b).built, f.CleanIn text := by
  induction pieces generalizing b with
  | nil => exact hb
  | cons p pieces ih =>
    have hfirst := clean_add start hb fun t ht => hp t (ht ▸ List.mem_cons_self ..)
    exact ih hfirst fun t ht => hp t (List.mem_cons_of_mem _ ht)

end Builder

theorem render_clean (pending : Option Group) (s : Slice) :
    ∀ f ∈ (render pending s).1.fragments, f.CleanIn s.text := by
  have hshown : s.shown <:+: s.text := by
    unfold Slice.shown
    split
    · obtain ⟨k, hk, -⟩ := Markup.hideUnfinished_eq_take s.text
      rw [hk]
      exact (List.take_prefix k s.text).isInfix
    · exact List.infix_refl _
  have hempty : ∀ f ∈ ({ pending } : Builder).built, f.CleanIn s.text := by
    intro f hf
    cases hf
  have hprose : ∀ t, Markup.Piece.prose t ∈ Markup.pieces s.shown → t <:+: s.text :=
    fun t ht => (Markup.prose_infix_of_mem ht).trans hshown
  have hbuilt := Builder.clean_foldl s.start hempty hprose
  intro f hf
  exact hbuilt f (List.mem_reverse.mp hf)

/-- A closing bracket is shown only in the glyph of a letter that takes it along. -/
theorem bracket_mem_plain_iff {l : RenderedLine} (h : ∀ f ∈ l.fragments, f.CleanIn text) :
    ']' ∈ l.plain ↔ l.TakesBracket := by
  unfold RenderedLine.plain
  rw [List.mem_flatMap]
  constructor
  · intro ⟨f, hf, hmem⟩
    have hclean := h f hf
    cases f with
    | prose t => exact absurd rfl (hclean ']' hmem).2
    | marker glyph group =>
      obtain ⟨lead, tail, hglyph⟩ := List.append_of_mem hmem
      simp only [Fragment.text] at hglyph
      rw [hglyph] at hf hclean
      refine ⟨lead, tail, group, hf, ?_, hclean.1.bracketed lead tail rfl⟩
      have hletter := hclean.1.letter
      cases lead with
      | nil =>
        have hbracket : isLetter ']' = false := by decide
        simp [isLetterCluster, hbracket] at hletter
      | cons c lead => exact hletter
  · intro ⟨lead, tail, group, hf, _⟩
    exact ⟨_, hf, by simp [Fragment.text]⟩

end Line

end CuedProse
