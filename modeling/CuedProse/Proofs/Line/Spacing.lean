import CuedProse.Proofs.Line.Cleanliness
import CuedProse.Proofs.Line.Markers
import CuedProse.Proofs.Line.Tidy

/-!
# Space where markup was

Prose is tidied piece by piece, and the pieces between groups of cues are joined to one fragment.
Brackets and space in front of closing punctuation never survive this. A doubled space may: of the
space behind a group only one character is dropped.

* `AllApart`: no prose has two spaces side by side; `ApartButEnd`: none but at the very end of the
  line, where closing punctuation may still take them away.
* `Takes`: what these two say after more prose; `takes_addProse` is the step.
* `Builder.Doubles`: a piece brings a second space, and nothing takes it away.
* `Builder.allApart_foldl`: a line stays free of doubled space if no piece doubles one.
* `render_tidy_iff`, `renderAll_tidy_iff`: so the prose of a rendered line is tidy if no piece of it
  doubles a space.
-/
namespace CuedProse.Line

open Glyph

/-! ## Space at the end of a text -/

section
variable {t u : Text}

theorem dropSpaceEnd_prefix_self (t : Text) : dropSpaceEnd t <+: t := by
  unfold dropSpaceEnd
  rw [← List.reverse_suffix, List.reverse_reverse]
  exact List.dropWhile_suffix _

theorem getLast?_dropSpaceEnd (t : Text) :
    (dropSpaceEnd t).getLast?.any isHorizontalSpace = false := by
  unfold dropSpaceEnd
  rw [List.getLast?_reverse]
  have hfirst := List.head?_dropWhile_not isHorizontalSpace t.reverse
  cases hd : (t.reverse.dropWhile isHorizontalSpace).head? with
  | none => rfl
  | some a =>
    rw [hd] at hfirst
    simpa using hfirst

theorem dropSpaceEnd_append_space (h : ∀ c ∈ u, isHorizontalSpace c = true) :
    dropSpaceEnd (t ++ u) = dropSpaceEnd t := by
  unfold dropSpaceEnd
  rw [List.reverse_append, List.dropWhile_append_of_pos fun c hc => h c (List.mem_reverse.mp hc)]

theorem dropSpaceEnd_append (h : dropSpaceEnd u ≠ []) :
    dropSpaceEnd (t ++ u) = t ++ dropSpaceEnd u := by
  unfold dropSpaceEnd at h ⊢
  rw [List.reverse_append, List.dropWhile_append, if_neg, List.reverse_append, List.reverse_reverse]
  simpa using h

theorem head?_dropSpaceEnd (h : dropSpaceEnd t ≠ []) : (dropSpaceEnd t).head? = t.head? := by
  obtain ⟨dropped, hsplit⟩ := dropSpaceEnd_prefix_self t
  have hhead : (dropSpaceEnd t ++ dropped).head? = (dropSpaceEnd t).head? :=
    List.head?_append_of_ne_nil _ h
  rw [← hhead, hsplit]

theorem isChain_dropSpaceEnd {R : Char → Char → Prop} (h : t.IsChain R) :
    (dropSpaceEnd t).IsChain R := by
  obtain ⟨dropped, hsplit⟩ := dropSpaceEnd_prefix_self t
  exact List.IsChain.left_of_append (hsplit ▸ h)

theorem isHorizontalSpace_of_mem_tidy (h : ink t = []) :
    ∀ c ∈ tidy t, isHorizontalSpace c = true := by
  intro c hc
  have hnot : c ∉ ink (tidy t) := by simp [(tidy_keepsInk t).ink_eq, h]
  have hne : c ≠ ']' := fun heq => (isTidy_tidy t).unbracketed (heq ▸ hc)
  simpa [ink, hc, hne] using hnot

theorem dropSpaceEnd_tidy_ne_nil (h : ink t ≠ []) : dropSpaceEnd (tidy t) ≠ [] := by
  intro hempty
  have hkept := (dropSpaceEnd_keepsInk (tidy t)).ink_eq
  rw [hempty, (tidy_keepsInk t).ink_eq] at hkept
  exact h hkept.symm

end

/-! ## Doubled space in fragments -/

/-- No prose among the fragments has two spaces side by side. -/
def AllApart (fragments : List Fragment) : Prop :=
  ∀ t, Fragment.prose t ∈ fragments → SpacesApart t

/-- The prose at the end of a line that is being built, and the fragments before it. -/
def openEnd : List Fragment → Text × List Fragment
  | .prose t :: before => (t, before)
  | built => ([], built)

/-- No prose has two spaces side by side, but for space at the end of the line. -/
def ApartButEnd (built : List Fragment) : Prop :=
  SpacesApart (dropSpaceEnd (openEnd built).1) ∧ AllApart (openEnd built).2

@[simp] theorem allApart_nil : AllApart [] := by simp [AllApart]

@[simp] theorem allApart_prose (t : Text) (fragments : List Fragment) :
    AllApart (.prose t :: fragments) ↔ SpacesApart t ∧ AllApart fragments := by
  simp [AllApart]

@[simp] theorem allApart_marker (glyph : Text) (g : Group) (fragments : List Fragment) :
    AllApart (.marker glyph g :: fragments) ↔ AllApart fragments := by
  simp [AllApart]

theorem apartButEnd_prose (t : Text) (before : List Fragment) :
    ApartButEnd (.prose t :: before) ↔ SpacesApart (dropSpaceEnd t) ∧ AllApart before := Iff.rfl

theorem apartButEnd_marker (glyph : Text) (g : Group) (before : List Fragment) :
    ApartButEnd (.marker glyph g :: before) ↔ AllApart before := by
  have hnil : SpacesApart (dropSpaceEnd []) := .nil
  simp [ApartButEnd, openEnd, hnil]

theorem allApart_openEnd (built : List Fragment) :
    AllApart built ↔ SpacesApart (openEnd built).1 ∧ AllApart (openEnd built).2 := by
  unfold openEnd
  split
  · exact allApart_prose _ _
  · exact (and_iff_right List.IsChain.nil).symm

theorem endsWithSpace_openEnd (built : List Fragment) :
    endsWithSpace built = (openEnd built).1.getLast?.any isHorizontalSpace := by
  unfold endsWithSpace openEnd
  split <;> simp_all

/-- Prose goes to the open end of the line. -/
theorem addProse_openEnd {built : List Fragment} {t : Text} (h : tidy t ≠ []) :
    addProse built t = .prose ((if opensClosing t then dropSpaceEnd (openEnd built).1
      else (openEnd built).1) ++ tidy t) :: (openEnd built).2 := by
  have hclosing := (head_tidy t).1
  cases htidy : tidy t with
  | nil => contradiction
  | cons c rest =>
    have hc : isClosing c = opensClosing t := by simpa [htidy] using hclosing
    rw [← hc]
    cases built with
    | nil => simp [addProse, openEnd, htidy, dropSpaceEnd]
    | cons f before => cases f <;> simp [addProse, openEnd, htidy, dropSpaceEnd]

theorem spacesApart_append {t u : Text} :
    SpacesApart (t ++ u) ↔ SpacesApart t ∧ SpacesApart u ∧
      ¬ (t.getLast?.any isHorizontalSpace = true ∧ u.head?.any isHorizontalSpace = true) := by
  unfold SpacesApart
  rw [List.isChain_append]
  refine and_congr_right fun _ => and_congr_right fun _ => ?_
  cases t.getLast? <;> cases u.head? <;> simp

/-- What adding `t` to a line does to its spaces. Closing punctuation takes space away from the end;
all else must not bring a second space. Without ink the end stays open. -/
structure Takes (built : List Fragment) (t : Text) (built' : List Fragment) : Prop where
  apart : AllApart built' ↔ if opensClosing t then ApartButEnd built
    else AllApart built ∧ ¬ (endsWithSpace built = true ∧ opensSpaced t = true)
  butEnd : ApartButEnd built' ↔ if ink t = [] then ApartButEnd built else AllApart built'

theorem takes_addProse (built : List Fragment) (t : Text) : Takes built t (addProse built t) := by
  obtain ⟨hclosing, hspaced⟩ := head_tidy t
  have hink : ink (tidy t) = ink t := (tidy_keepsInk t).ink_eq
  have htidy := isTidy_tidy t
  by_cases hnil : tidy t = []
  · -- nothing is added
    have hsame : addProse built t = built := by simp [addProse, hnil]
    rw [hnil] at hclosing hspaced hink
    have hnone : opensClosing t = false := hclosing.symm
    have hfree : opensSpaced t = false := by simpa [hnone] using hspaced.symm
    rw [hsame]
    exact ⟨by simp [hnone, hfree], by simp [← hink]⟩
  · rw [addProse_openEnd hnil]
    generalize hend : (if opensClosing t then dropSpaceEnd (openEnd built).1
      else (openEnd built).1) = earlier
    refine ⟨?_, ?_⟩
    · rw [allApart_prose, spacesApart_append, hspaced, allApart_openEnd built,
        endsWithSpace_openEnd built, ApartButEnd]
      cases hc : opensClosing t with
      | true =>
        rw [hc, if_pos rfl] at hend
        simp [← hend, htidy.apart]
      | false =>
        rw [hc, if_neg Bool.false_ne_true] at hend
        simp only [hend, htidy.apart, Bool.not_false, Bool.and_true, true_and,
          Bool.false_eq_true, if_false]
        exact and_right_comm
    · rw [apartButEnd_prose, allApart_prose]
      by_cases hblank : ink t = []
      · -- what is added is space, so it goes with the space at the end
        rw [if_pos hblank]
        have hnone : opensClosing t = false := by simp [opensClosing, hblank]
        rw [hnone, if_neg Bool.false_ne_true] at hend
        rw [dropSpaceEnd_append_space (isHorizontalSpace_of_mem_tidy hblank), ← hend]
        rfl
      · -- what is added keeps its beginning, and only that meets what was there
        rw [if_neg hblank]
        have hleft := dropSpaceEnd_tidy_ne_nil hblank
        have hapart : SpacesApart (dropSpaceEnd (tidy t)) := isChain_dropSpaceEnd htidy.apart
        rw [dropSpaceEnd_append hleft, spacesApart_append, spacesApart_append,
          head?_dropSpaceEnd hleft]
        simp only [hapart, htidy.apart]

/-! ## Closing punctuation in fragments -/

/-- No prose among the fragments has space in front of closing punctuation. -/
def AllJoined (fragments : List Fragment) : Prop :=
  ∀ t, Fragment.prose t ∈ fragments → ClosingJoined t

theorem allJoined_addProse {built : List Fragment} (h : AllJoined built) (t : Text) :
    AllJoined (addProse built t) := by
  have hjoined := (isTidy_tidy t).joined
  have hclosing := (head_tidy t).1
  by_cases hnil : tidy t = []
  · simpa [addProse, hnil] using h
  · have hopen : ClosingJoined (openEnd built).1 ∧ AllJoined (openEnd built).2 := by
      unfold openEnd
      split
      · exact ⟨h _ (List.mem_cons_self ..), fun u hu => h u (List.mem_cons_of_mem _ hu)⟩
      · exact ⟨.nil, h⟩
    rw [addProse_openEnd hnil]
    intro u hu
    rcases List.mem_cons.mp hu with heq | hu
    · cases heq
      cases hc : opensClosing t with
      | true =>
        -- the space at the end is gone
        rw [if_pos rfl]
        have hend := getLast?_dropSpaceEnd (openEnd built).1
        refine (isChain_dropSpaceEnd hopen.1).append hjoined fun a ha b _ hab => ?_
        rw [Option.mem_def.mp ha, Option.any_some, hab.1] at hend
        cases hend
      | false =>
        rw [if_neg Bool.false_ne_true]
        refine hopen.1.append hjoined fun a _ b hb hab => ?_
        rw [Option.mem_def.mp hb, Option.any_some, hab.2, hc] at hclosing
        cases hclosing
    · exact hopen.2 u hu

theorem allJoined_marker {built : List Fragment} (h : AllJoined built) (glyph : Text) (g : Group) :
    AllJoined (.marker glyph g :: built) := by
  intro t ht
  refine h t ?_
  simpa using ht

/-! ## Building a line -/

/-- How a text opens is settled by what stands in front of its first letter, and the letter is not
closing punctuation. -/
theorem opens_append_letter {c : Char} (h : isLetter c = true) (t u : Text) :
    opensClosing (t ++ c :: u) = opensClosing t ∧ opensSpaced (t ++ c :: u) = opensSpaced t := by
  have hbracket := ne_bracket_of_isLetter h
  have hletter := isHorizontalSpace_of_isLetter h
  induction t with
  | nil =>
    rw [List.nil_append, opensClosing_ink u hbracket hletter, opensSpaced_ink u hbracket hletter,
      isClosing_of_isLetter h]
    exact ⟨rfl, rfl⟩
  | cons d t ih =>
    rw [List.cons_append]
    by_cases hd : d = ']'
    · rw [hd, opensClosing_bracket, opensClosing_bracket, opensSpaced_bracket, opensSpaced_bracket]
      exact ih
    · cases hspace : isHorizontalSpace d with
      | true =>
        rw [opensClosing_space _ hspace, opensClosing_space _ hspace, opensSpaced_space _ hspace,
          opensSpaced_space _ hspace]
        exact ⟨ih.1, rfl⟩
      | false =>
        rw [opensClosing_ink _ hd hspace, opensClosing_ink _ hd hspace,
          opensSpaced_ink _ hd hspace, opensSpaced_ink _ hd hspace]
        exact ⟨rfl, rfl⟩

namespace Builder

theorem takes_addProse (b : Builder) (t : Text) :
    Takes b.built (b.dropDoubled t) (b.addProse t).built := by
  obtain ⟨-, hadd⟩ | ⟨g, s, -, hs, hadd⟩ := b.addProse_cases t
  · rw [hadd]
    exact Line.takes_addProse b.built _
  · rw [hadd]
    obtain ⟨hsplit, hglyph⟩ := splitAtLetter?_spec hs
    obtain ⟨c, rest, hcons, hletter⟩ := isLetterCluster_eq_true.mp hglyph.letter
    rw [List.append_assoc, hcons, List.cons_append] at hsplit
    obtain ⟨hclosing, hspaced⟩ := opens_append_letter hletter s.before (rest ++ s.after)
    have hinked : ink (b.dropDoubled t) ≠ [] := by
      rw [hsplit, ink_append, ink_cons_of_isLetter hletter]
      simp
    obtain ⟨hbefore, -⟩ := Line.takes_addProse b.built s.before
    obtain ⟨hafter, hend⟩ :=
      Line.takes_addProse (.marker s.glyph g :: Line.addProse b.built s.before) s.after
    -- what stands before a marker is settled
    have hmarker : endsWithSpace (.marker s.glyph g :: Line.addProse b.built s.before) = false := rfl
    rw [apartButEnd_marker, allApart_marker, hmarker] at hafter
    rw [apartButEnd_marker] at hend
    have hsettled : AllApart (Line.addProse (.marker s.glyph g :: Line.addProse b.built s.before)
        s.after) ↔ AllApart (Line.addProse b.built s.before) := by
      rw [hafter]
      simp
    refine ⟨?_, ?_⟩
    · rw [hsettled, hbefore, hsplit, hclosing, hspaced]
    · rw [if_neg hinked, hend, hsettled, ite_self]

/-- Some prose among the pieces brings space to a line that ends with space, even without the one
character that is dropped, and the next ink is not closing punctuation. -/
def Doubles (start : Nat) (b : Builder) (pieces : List Markup.Piece) : Prop :=
  ∃ before t after, pieces = before ++ .prose t :: after ∧
    let reached := before.foldl (add start) b
    endsWithSpace reached.built = true ∧ opensSpaced (reached.dropDoubled t) = true ∧
      opensClosing (t ++ after.flatMap Markup.Piece.text) = false

theorem doubles_nil (start : Nat) (b : Builder) : ¬ b.Doubles start [] := by
  rintro ⟨before, t, after, hsplit, -⟩
  simp at hsplit

theorem doubles_cons (start : Nat) (b : Builder) (p : Markup.Piece) (pieces : List Markup.Piece) :
    b.Doubles start (p :: pieces) ↔
      (∃ t, p = .prose t ∧ endsWithSpace b.built = true ∧ opensSpaced (b.dropDoubled t) = true ∧
        opensClosing (t ++ pieces.flatMap Markup.Piece.text) = false) ∨
        (b.add start p).Doubles start pieces := by
  constructor
  · rintro ⟨before, t, after, hsplit, hdouble⟩
    rcases List.cons_eq_append_iff.mp hsplit with ⟨rfl, hsplit⟩ | ⟨before, rfl, rfl⟩
    · cases hsplit
      exact .inl ⟨t, rfl, hdouble⟩
    · exact .inr ⟨before, t, after, rfl, hdouble⟩
  · rintro (⟨t, rfl, hdouble⟩ | ⟨before, t, after, rfl, hdouble⟩)
    · exact ⟨[], t, pieces, rfl, hdouble⟩
    · exact ⟨p :: before, t, after, rfl, hdouble⟩

theorem opensClosing_append (t u : Text) :
    opensClosing (t ++ u) = if ink t = [] then opensClosing u else opensClosing t := by
  unfold opensClosing
  rw [ink_append]
  split
  · rename_i hblank
    rw [hblank, List.nil_append]
  · rename_i hinked
    rw [List.head?_append_of_ne_nil _ hinked]

/-- A line has no doubled space if it had none before and no piece doubles one. Space at its end
does not count if closing punctuation is the next ink. -/
theorem allApart_foldl (start : Nat) (b : Builder) (pieces : List Markup.Piece) :
    AllApart (pieces.foldl (add start) b).built ↔
      (if opensClosing (pieces.flatMap Markup.Piece.text) then ApartButEnd b.built
        else AllApart b.built) ∧ ¬ b.Doubles start pieces := by
  induction pieces generalizing b with
  | nil =>
    have hopen : opensClosing [] = false := rfl
    simp [doubles_nil, hopen]
  | cons p pieces ih =>
    rw [List.foldl_cons, List.flatMap_cons, ih, doubles_cons, not_or, ← and_assoc]
    refine and_congr_left fun _ => ?_
    cases p with
    | cues g =>
      simp only [reduceCtorEq, false_and, exists_false, not_false_eq_true, and_true]
      exact Iff.rfl
    | prose t =>
      obtain ⟨hapart, hend⟩ := b.takes_addProse t
      have hink : ink (b.dropDoubled t) = ink t := (b.dropDoubled_keepsInk t).ink_eq
      have hclosing : opensClosing (b.dropDoubled t) = opensClosing t := by
        rw [opensClosing, opensClosing, hink]
      rw [hclosing] at hapart
      rw [hink] at hend
      have hcons : opensClosing (t ++ pieces.flatMap Markup.Piece.text) = _ := opensClosing_append ..
      simp only [add, Markup.Piece.text, hcons, Markup.Piece.prose.injEq, exists_eq_left']
      by_cases hblank : ink t = []
      · -- the end stays open for what follows
        have hnone : opensClosing t = false := by simp [opensClosing, hblank]
        rw [hnone, if_neg Bool.false_ne_true] at hapart
        rw [if_pos hblank] at hend ⊢
        cases hnext : opensClosing (pieces.flatMap Markup.Piece.text) with
        | true => simp [hend]
        | false => simp [hapart]
      · -- the ink of the piece settles the end
        rw [if_neg hblank] at hend ⊢
        rw [hend, ite_self, hapart]
        cases opensClosing t <;> simp

end Builder

/-- A piece of the line doubles a space, given the group that waits when it begins. -/
def Slice.DoublesSpace (pending : Option Group) (s : Slice) : Prop :=
  Builder.Doubles s.start { pending } (Markup.pieces s.shown)

/-- Prose of a rendered line has no closing bracket and no space in front of closing punctuation. It
is as tidying leaves it, save where a piece doubles a space. -/
theorem render_tidy_iff (pending : Option Group) (s : Slice) :
    let l := (render pending s).1
    (∀ t, .prose t ∈ l.fragments → ']' ∉ t ∧ ClosingJoined t) ∧
      ((∀ t, .prose t ∈ l.fragments → tidy t = t) ↔ ¬ s.DoublesSpace pending) := by
  intro l
  have hbracket : ∀ t, Fragment.prose t ∈ l.fragments → ']' ∉ t := by
    intro t ht hmem
    exact (render_clean pending s _ ht _ hmem).2 rfl
  have hjoined : AllJoined l.fragments := by
    intro t ht
    refine Builder.built_foldl (P := AllJoined) (fun _ t h => allJoined_addProse h t)
      (fun _ glyph g h => allJoined_marker h glyph g) s.start (b := { pending }) ?_
      (Markup.pieces s.shown) t (List.mem_reverse.mp ht)
    intro u hu
    cases hu
  have hapart : AllApart l.fragments ↔ ¬ s.DoublesSpace pending := by
    have hbuilt := Builder.allApart_foldl s.start { pending } (Markup.pieces s.shown)
    have hempty : ApartButEnd [] := ⟨.nil, allApart_nil⟩
    simp only [hempty, allApart_nil, ite_self, true_and] at hbuilt
    rw [← Slice.DoublesSpace] at hbuilt
    rw [← hbuilt]
    unfold AllApart
    exact forall_congr' fun t => imp_congr_left List.mem_reverse
  refine ⟨fun t ht => ⟨hbracket t ht, hjoined t ht⟩, ?_⟩
  rw [← hapart]
  refine forall_congr' fun t => imp_congr_right fun ht => ?_
  rw [tidy_eq_self_iff]
  exact ⟨fun h => h.apart, fun h => ⟨hbracket t ht, h, hjoined t ht⟩⟩

/-- The same for each of the lines that are rendered one after the other. -/
theorem renderAll_tidy_iff (pending : Option Group) (before : List Slice) (s : Slice)
    (after : List Slice) :
    let waiting := (renderAll pending before).2
    ∃ l, (renderAll pending (before ++ s :: after)).1[before.length]? = some l ∧
      (∀ t, .prose t ∈ l.fragments → ']' ∉ t ∧ ClosingJoined t) ∧
        ((∀ t, .prose t ∈ l.fragments → tidy t = t) ↔ ¬ s.DoublesSpace waiting) := by
  intro waiting
  refine ⟨(render waiting s).1, ?_, render_tidy_iff waiting s⟩
  rw [renderAll_append, List.getElem?_append_right (renderAll_length ..).le, renderAll_length,
    Nat.sub_self]
  rfl

/-- Of two spaces behind a group one is dropped, so with the one in front of it there are two. -/
theorem doubled_space_stays :
    let s : Slice := ⟨0, 0, "a [cue:vfx|x]  b".toList, false⟩
    s.DoublesSpace none ∧
      ∃ l, (renderAll none [s]).1[0]? = some l ∧ .prose "a  ".toList ∈ l.fragments ∧
        tidy "a  ".toList = "a ".toList := by
  intro s
  obtain ⟨l, hl, -, hiff⟩ := renderAll_tidy_iff none [] s []
  have hfirst : (renderAll none [s]).1[0]?.bind (·.fragments.head?) =
      some (.prose "a  ".toList) := by decide +kernel
  have hline : (renderAll none [s]).1[0]? = some l := hl
  have hprose : .prose "a  ".toList ∈ l.fragments := by
    rw [hline] at hfirst
    exact List.mem_of_mem_head? hfirst
  have htidy : tidy "a  ".toList = "a ".toList := by decide
  refine ⟨?_, l, hline, hprose, htidy⟩
  by_contra hnone
  have hsame := hiff.mpr hnone _ hprose
  rw [htidy] at hsame
  revert hsame
  decide

end CuedProse.Line
