import CuedProse.Reading.Chapter

/-!
# Sources

A source may write a line break in four ways: as a line feed, as a carriage return, as both, or as an
escape of two characters. Normalising it reads one of them, or one other character, at a time.

* `induction_on`: induction along this reading.
* `return_not_mem_normalise`, `escape_not_infix_normalise`: no line break is left that is not a line
  feed, and none appears where others were taken out.
* `normalise_eq_self_iff`: a source is left alone exactly if it has none to begin with.
* `normalise_append_iff`: two parts are normalised on their own, unless a line break is cut in two.
* `normalise_fixed_point`: all this of every source, and that a chapter does not notice whether its
  source was normalised before.
-/
namespace CuedProse.Newline

/-! ## Reading a source -/

def escape : Text := ['\\', 'n']

section
variable {c : Char} {s t a b : Text}

theorem escape_infix_cons :
    escape <:+: c :: t ↔ (c = '\\' ∧ t.head? = some 'n') ∨ escape <:+: t := by
  rw [List.infix_cons_iff, escape, List.cons_prefix_cons]
  cases t with
  | nil => simp
  | cons d t => simp [List.cons_prefix_cons, eq_comm]

theorem hasEscape_iff (t : Text) : hasEscape t = true ↔ escape <:+: t := by
  fun_induction hasEscape t with
  | case1 t => simp [escape_infix_cons]
  | case2 c t h ih =>
    have hnot : ¬ (c = '\\' ∧ t.head? = some 'n') := by
      rintro ⟨hslash, hn⟩
      obtain ⟨u, hu⟩ := List.head?_eq_some_iff.mp hn
      exact h u hslash hu
    rw [ih, escape_infix_cons, or_iff_right hnot]
  | case3 => simp [escape]

theorem isNormal_iff (t : Text) : isNormal t = true ↔ '\r' ∉ t ∧ ¬ escape <:+: t := by
  rw [isNormal, Bool.and_eq_true, Bool.not_eq_true', Bool.not_eq_true', ← Bool.not_eq_true,
    ← Bool.not_eq_true, hasEscape_iff, List.contains_iff_mem]

theorem normalise_return (h : t.head? ≠ some '\n') :
    normalise ('\r' :: t) = '\n' :: normalise t := by
  rw [normalise]
  intro u hu
  exact h (by rw [hu]; rfl)

theorem normalise_other (hc : c ≠ '\r') (h : ¬ (c = '\\' ∧ t.head? = some 'n')) :
    normalise (c :: t) = c :: normalise t := by
  rw [normalise]
  · exact fun _ hreturn _ => hc hreturn
  · exact hc
  · exact fun u hslash hu => h ⟨hslash, by rw [hu]; rfl⟩

/-- Induction over a source, one line break or one other character at a time. -/
theorem induction_on {motive : Text → Prop} (s : Text) (nil : motive [])
    (both : ∀ t, motive t → motive ('\r' :: '\n' :: t))
    (alone : ∀ t, t.head? ≠ some '\n' → motive t → motive ('\r' :: t))
    (escaped : ∀ t, motive t → motive ('\\' :: 'n' :: t))
    (other : ∀ c t, c ≠ '\r' → ¬ (c = '\\' ∧ t.head? = some 'n') → motive t → motive (c :: t)) :
    motive s := by
  fun_induction normalise s with
  | case1 => exact nil
  | case2 t ih => exact both t ih
  | case3 t h ih =>
    refine alone t (fun hhead => ?_) ih
    obtain ⟨u, hu⟩ := List.head?_eq_some_iff.mp hhead
    exact h u hu
  | case4 t ih => exact escaped t ih
  | case5 c t _ hc h ih =>
    refine other c t hc ?_ ih
    rintro ⟨hslash, hn⟩
    obtain ⟨u, hu⟩ := List.head?_eq_some_iff.mp hn
    exact h u hslash hu

/-! ## The normal form -/

theorem return_not_mem_normalise (s : Text) : '\r' ∉ normalise s := by
  induction s using induction_on with
  | nil => simp [normalise]
  | both t ih => simpa [normalise] using ih
  | alone t h ih => simpa [normalise_return h] using ih
  | escaped t ih => simpa [normalise] using ih
  | other c t hc h ih => simpa [normalise_other hc h] using ⟨hc.symm, ih⟩

theorem head_normalise (h : (normalise s).head? = some 'n') : s.head? = some 'n' := by
  induction s using induction_on with
  | nil => simp [normalise] at h
  | both t _ => simp [normalise] at h
  | alone t hhead _ => simp [normalise_return hhead] at h
  | escaped t _ => simp [normalise] at h
  | other c t hc hhead _ => simpa [normalise_other hc hhead] using h

theorem escape_not_infix_normalise (s : Text) : ¬ escape <:+: normalise s := by
  induction s using induction_on with
  | nil => simp [normalise, escape]
  | both t ih => simpa [normalise, escape_infix_cons] using ih
  | alone t h ih => simpa [normalise_return h, escape_infix_cons] using ih
  | escaped t ih => simpa [normalise, escape_infix_cons] using ih
  | other c t hc h ih =>
    rw [normalise_other hc h, escape_infix_cons]
    -- what stands behind a backslash began with no `n`, and no `n` came from elsewhere
    rintro (⟨hslash, hn⟩ | hlater)
    · exact h ⟨hslash, head_normalise hn⟩
    · exact ih hlater

theorem normalise_eq_self_iff (s : Text) : normalise s = s ↔ '\r' ∉ s ∧ ¬ escape <:+: s := by
  constructor
  · intro h
    exact h ▸ ⟨return_not_mem_normalise s, escape_not_infix_normalise s⟩
  · rintro ⟨hreturn, hescape⟩
    induction s using induction_on with
    | nil => rfl
    | both t _ => simp at hreturn
    | alone t _ _ => simp at hreturn
    | escaped t _ => simp [escape_infix_cons] at hescape
    | other c t hc h ih =>
      rw [escape_infix_cons, not_or] at hescape
      rw [normalise_other hc h, ih (fun hmem => hreturn (List.mem_cons_of_mem c hmem)) hescape.2]

/-! ## Two parts of a source -/

/-- Whether a line break is written across the join of `a` and `b`. -/
def Splits (a b : Text) : Prop :=
  (a.getLast? = some '\r' ∧ b.head? = some '\n') ∨ (a.getLast? = some '\\' ∧ b.head? = some 'n')

theorem Splits.cons (h : Splits t b) (c : Char) : Splits (c :: t) b := by
  rcases h with ⟨hlast, hhead⟩ | ⟨hlast, hhead⟩
  · exact .inl ⟨by rw [List.getLast?_cons, hlast]; rfl, hhead⟩
  · exact .inr ⟨by rw [List.getLast?_cons, hlast]; rfl, hhead⟩

theorem not_splits_of_head (hn : b.head? ≠ some 'n') (hfeed : b.head? ≠ some '\n') :
    ¬ Splits a b := by
  rintro (⟨-, hhead⟩ | ⟨-, hhead⟩)
  · exact hfeed hhead
  · exact hn hhead

/-- What stands behind the first character of `c :: (t ++ b)` stands there in `c :: t`, or the join
is right behind `c`. -/
theorem head_append (h : (t ++ b).head? = some c) :
    t.head? = some c ∨ t = [] ∧ b.head? = some c := by
  cases t with
  | nil => exact .inr ⟨rfl, h⟩
  | cons d t => exact .inl h

/-- Nothing is read across the join if nothing is written across it. -/
theorem normalise_append (h : ¬ Splits a b) : normalise (a ++ b) = normalise a ++ normalise b := by
  induction a using induction_on with
  | nil => rfl
  | both t ih =>
    have hrest := ih fun hsplits => h ((hsplits.cons '\n').cons '\r')
    simp only [List.cons_append, normalise, hrest]
  | alone t hhead ih =>
    have hnext : (t ++ b).head? ≠ some '\n' := fun hfeed => by
      rcases head_append hfeed with hinside | ⟨hnil, hb⟩
      · exact hhead hinside
      · exact h (.inl ⟨by rw [hnil]; rfl, hb⟩)
    rw [List.cons_append, normalise_return hnext, normalise_return hhead,
      ih fun hsplits => h (hsplits.cons '\r'), List.cons_append]
  | escaped t ih =>
    have hrest := ih fun hsplits => h ((hsplits.cons 'n').cons '\\')
    simp only [List.cons_append, normalise, hrest]
  | other c t hc hhead ih =>
    have hnext : ¬ (c = '\\' ∧ (t ++ b).head? = some 'n') := by
      rintro ⟨hslash, hn⟩
      rcases head_append hn with hinside | ⟨hnil, hb⟩
      · exact hhead ⟨hslash, hinside⟩
      · exact h (.inr ⟨by rw [hnil, hslash]; rfl, hb⟩)
    rw [List.cons_append, normalise_other hc hnext, normalise_other hc hhead,
      ih fun hsplits => h (hsplits.cons c), List.cons_append]

theorem length_normalise_of_splits (h : Splits a b) :
    (normalise a ++ normalise b).length = (normalise (a ++ b)).length + 1 := by
  obtain ⟨x, y, hx, hy, hbreak⟩ : ∃ x y, a.getLast? = some x ∧ b.head? = some y ∧
      (x = '\r' ∧ y = '\n' ∨ x = '\\' ∧ y = 'n') := by
    rcases h with ⟨hlast, hhead⟩ | ⟨hlast, hhead⟩
    · exact ⟨_, _, hlast, hhead, .inl ⟨rfl, rfl⟩⟩
    · exact ⟨_, _, hlast, hhead, .inr ⟨rfl, rfl⟩⟩
  obtain ⟨a, rfl⟩ := List.getLast?_eq_some_iff.mp hx
  obtain ⟨b, rfl⟩ := List.head?_eq_some_iff.mp hy
  have hboth : (normalise (x :: y :: b)).length = (normalise b).length + 1 := by
    rcases hbreak with ⟨rfl, rfl⟩ | ⟨rfl, rfl⟩ <;> simp [normalise]
  have hfirst : (normalise [x]).length = 1 := by
    rcases hbreak with ⟨rfl, rfl⟩ | ⟨rfl, rfl⟩ <;> simp [normalise]
  have hsecond : normalise (y :: b) = y :: normalise b := by
    rcases hbreak with ⟨-, rfl⟩ | ⟨-, rfl⟩ <;> exact normalise_other (by decide) (by simp)
  -- the first half of a line break is no second half of another one
  have hbefore : ∀ u, ¬ Splits a (x :: u) := fun u => by
    rcases hbreak with ⟨rfl, -⟩ | ⟨rfl, -⟩ <;> exact not_splits_of_head (by simp) (by simp)
  rw [List.append_assoc a, List.singleton_append, normalise_append (hbefore []),
    normalise_append (hbefore (y :: b)), hsecond]
  simp only [List.length_append, List.length_cons, hboth, hfirst]
  omega

theorem normalise_append_iff (a b : Text) :
    normalise (a ++ b) = normalise a ++ normalise b ↔ ¬ Splits a b := by
  constructor
  · intro h hsplits
    have hlength := length_normalise_of_splits hsplits
    rw [h] at hlength
    omega
  · exact normalise_append

end

/-- **Normalising reaches a fixed point and works part by part.** A normalised source has no carriage
return and no escape, and the sources that have none to begin with are the ones left alone. So
normalising twice is normalising once, and a chapter is the same whether its source was normalised
before or not. A source may be normalised in two parts exactly if no line break is cut in two. -/
theorem normalise_fixed_point (source : Text) :
    '\r' ∉ normalise source ∧ ¬ escape <:+: normalise source ∧
      (normalise source = source ↔ '\r' ∉ source ∧ ¬ escape <:+: source) ∧
      (isNormal source = true ↔ normalise source = source) ∧
      normalise (normalise source) = normalise source ∧
      (∀ o, Chapter.load (normalise source) o = Chapter.load source o) ∧
      ∀ rest, normalise (source ++ rest) = normalise source ++ normalise rest ↔
        ¬ Splits source rest := by
  have hreturn := return_not_mem_normalise source
  have hescape := escape_not_infix_normalise source
  have htwice : normalise (normalise source) = normalise source :=
    (normalise_eq_self_iff _).mpr ⟨hreturn, hescape⟩
  have hchapter : Chapter.ofSource (normalise source) = Chapter.ofSource source := by
    funext o
    rw [Chapter.ofSource, Chapter.ofSource, htwice]
  refine ⟨hreturn, hescape, normalise_eq_self_iff source, ?_, htwice, fun o => ?_,
    normalise_append_iff source⟩
  · rw [isNormal_iff, normalise_eq_self_iff]
  · rw [Chapter.load, Chapter.load, hchapter]

/-- Two carriage returns and a line feed, and a backslash in front of an escape. -/
example : normalise "a\r\r\nb\\\\nada".toList = "a\n\nb\\\nada".toList := by decide

end CuedProse.Newline
