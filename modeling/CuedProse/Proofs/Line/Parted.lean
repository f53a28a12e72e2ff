import CuedProse.Proofs.Cue.Blocks
import CuedProse.Proofs.Line.Prose

/-!
# Ink between the markers

A group that found its letter is closed: the letter stands in the text behind its cues and in front
of the cues that come next. So groups that a rendering keeps apart are apart in the text as well,
whatever the lines that it was rendered from.

* `InkBetween`: something other than white space stands between two offsets of a text.
* `Parted`: this holds between the groups of a rendering that has come to some offset.
* `Parted.addProse`, `Parted.addGroup`: a piece of a line keeps it; `render_parted` and
  `renderAll_parted` are the same for a line and for all lines.
-/
namespace CuedProse

open Glyph

/-- Something other than white space stands in `t` from offset `a` on and before offset `b`. -/
def InkBetween (t : Text) (a b : Nat) : Prop :=
  ∃ o c, a ≤ o ∧ o < b ∧ t[o]? = some c ∧ isSpace c = false

namespace InkBetween

variable {t : Text} {a b : Nat}

theorem mono (h : InkBetween t a b) {a' b' : Nat} (ha : a' ≤ a) (hb : b ≤ b') :
    InkBetween t a' b' := by
  obtain ⟨o, c, hao, hob, hc, hspace⟩ := h
  exact ⟨o, c, Nat.le_trans ha hao, Nat.lt_of_lt_of_le hob hb, hc, hspace⟩

theorem of_mem {u : Text} (hu : u <+: t.drop a) {c : Char} (hc : c ∈ u)
    (hspace : isSpace c = false) : InkBetween t a (a + u.length) := by
  obtain ⟨i, hi, hget⟩ := List.getElem_of_mem hc
  obtain ⟨rest, hrest⟩ := hu
  refine ⟨a + i, c, Nat.le_add_right a i, Nat.add_lt_add_left hi a, ?_, hspace⟩
  rw [← List.getElem?_drop, ← hrest, List.getElem?_append_left hi, List.getElem?_eq_getElem hi,
    hget]

/-- Cues with ink between them do not belong together. -/
theorem joined_eq_false {c d : Cue} (h : InkBetween t c.stop d.start) :
    Group.joined t c d = false := by
  obtain ⟨o, x, ho, hod, hx, hspace⟩ := h
  have hmem : x ∈ Text.slice t c.stop d.start := by
    refine List.mem_of_getElem? (i := o - c.stop) ?_
    rw [Text.slice, List.getElem?_drop, Nat.add_sub_cancel' ho, List.getElem?_take_of_lt hod, hx]
  have hall : (Text.slice t c.stop d.start).all isSpace = false := by
    rw [List.all_eq_false]
    exact ⟨x, hmem, by rw [hspace]; decide⟩
  rw [Group.joined, hall, Bool.and_false]

end InkBetween

namespace Group

@[simp] theorem start_shift (delta : Nat) (g : Group) : (g.shift delta).start = g.start + delta :=
  rfl

@[simp] theorem stop_shift (delta : Nat) (g : Group) : (g.shift delta).stop = g.stop + delta := by
  have hlast := (g.shift delta).getLast?_cues
  rw [cues_shift, List.getLast?_map, getLast?_cues] at hlast
  exact congrArg Cue.stop (Option.some.inj hlast).symm

@[simp] theorem stop_append (g h : Group) : (g.append h).stop = h.stop :=
  congrArg Cue.stop (last_eq_of_cues (cues_append g h))

end Group

namespace Markup

theorem allCues_groups (t : Text) : Group.allCues (groups t) = cues t :=
  Group.gather_cues t (cues t)

theorem allCues_groups_apart (t : Text) :
    (Group.allCues (groups t)).Pairwise fun c d => c.stop ≤ d.start :=
  allCues_groups t ▸ cues_ordered t

theorem groups_ordered (t : Text) : (groups t).Pairwise fun g h => g.stop ≤ h.start :=
  (Group.groups_apart (allCues_groups_apart t)).imp fun h =>
    h _ (Group.last_mem _) _ (Group.first_mem _)

theorem group_inside {t : Text} {g : Group} (h : g ∈ groups t) :
    g.start ≤ g.stop ∧ g.stop ≤ t.length := by
  have hcues : ∀ c ∈ g.cues, c ∈ cues t := fun c hc =>
    allCues_groups t ▸ List.mem_flatMap.mpr ⟨g, h, hc⟩
  have hwithin := (List.pairwise_flatMap.mp (allCues_groups_apart t)).1 g h
  have hfirst := start_lt_stop (hcues _ g.first_mem)
  have hlast := start_lt_stop (hcues _ g.last_mem)
  refine ⟨?_, stop_le_length (hcues _ g.last_mem)⟩
  have hmem := g.last_mem
  rw [Group.cues] at hmem hwithin
  rcases List.mem_cons.mp hmem with heq | hothers
  · rw [Group.start, Group.stop, heq]
    exact Nat.le_of_lt hfirst
  · have := (List.pairwise_cons.mp hwithin).1 _ hothers
    rw [Group.start, Group.stop]
    omega

theorem groups_isChain (t : Text) :
    ∀ g ∈ groups t, g.cues.IsChain (Group.joined t · ·) :=
  Group.gather_isChain (cues_start_le t) fun _ hc => inside_of_mem hc

end Markup

namespace Line

/-- A rendering has come to the offset `reach`, with the groups `markers`, last one first, on its
markers: there is ink between the groups, also between the last marker and the group that waits, or
what comes next if none does. -/
structure Parted (text : Text) (markers : List Group) (pending : Option Group) (reach : Nat) :
    Prop where
  chain : (pending.toList ++ markers).IsChain fun h g => InkBetween text g.stop h.start
  ahead : pending = none → ∀ g ∈ markers.head?, InkBetween text g.stop reach
  stop_le : ∀ g ∈ pending, g.stop ≤ reach

namespace Parted

variable {text : Text} {markers : List Group} {pending : Option Group} {reach : Nat}

theorem nil (text : Text) (reach : Nat) : Parted text [] none reach :=
  ⟨.nil, by simp, by simp⟩

theorem mono (h : Parted text markers pending reach) {reach' : Nat} (hle : reach ≤ reach') :
    Parted text markers pending reach' where
  chain := h.chain
  ahead hnone g hg := (h.ahead hnone g hg).mono (Nat.le_refl _) hle
  stop_le g hg := Nat.le_trans (h.stop_le g hg) hle

/-- From front to back, the groups of the markers and the one that waits have ink between them. -/
theorem forward (h : Parted text markers pending reach) :
    (markers.reverse ++ pending.toList).IsChain fun g h => InkBetween text g.stop h.start := by
  have hreverse : markers.reverse ++ pending.toList = (pending.toList ++ markers).reverse := by
    rw [List.reverse_append]
    cases pending <;> rfl
  rw [hreverse, List.isChain_reverse]
  exact h.chain

theorem mark {g : Group} (h : Parted text markers (some g) reach) {reach' : Nat}
    (hink : InkBetween text reach reach') : Parted text (g :: markers) none reach' where
  chain := h.chain
  ahead _ m hm := by
    cases hm
    exact hink.mono (h.stop_le g rfl) (Nat.le_refl _)
  stop_le := by simp

/-- A group further on waits, or joins the one that does. -/
theorem addGroup {b : Builder} (h : Parted text markers b.pending reach) {g : Group}
    (hg : reach ≤ g.start) : Parted text markers (b.addGroup g).pending g.stop := by
  obtain ⟨hchain, hahead, -⟩ := h
  unfold Builder.addGroup
  cases hp : b.pending with
  | none =>
    rw [hp] at hchain hahead
    refine ⟨List.isChain_cons.mpr ⟨fun m hm => ?_, hchain⟩, by simp, by simp⟩
    exact (hahead rfl m hm).mono (Nat.le_refl _) hg
  | some waiting =>
    -- the group still begins with the one that waited
    rw [hp] at hchain
    exact ⟨List.isChain_cons.mpr (List.isChain_cons.mp hchain), by simp, by simp⟩

/-- One step with prose, which the text goes on with. -/
theorem addProse {b : Builder} {earlier : List Group}
    (h : Parted text (b.built.filterMap Fragment.group? ++ earlier) b.pending reach) {t : Text}
    (ht : t <+: text.drop reach) :
    Parted text ((b.addProse t).built.filterMap Fragment.group? ++ earlier) (b.addProse t).pending
      (reach + t.length) := by
  obtain ⟨-, hadd⟩ | ⟨g, s, hg, hs, hadd⟩ := b.addProse_cases t
  · rw [hadd, addProse_groups]
    exact h.mono (Nat.le_add_right _ _)
  · have hmarker : (Fragment.marker s.glyph g :: Line.addProse b.built s.before).filterMap
        Fragment.group? = g :: b.built.filterMap Fragment.group? :=
      congrArg (g :: ·) (addProse_groups b.built s.before)
    -- a letter is ink
    obtain ⟨c, hc, hspace⟩ : ∃ c ∈ b.dropDoubled t, isSpace c = false := by
      by_contra hnone
      rw [splitAtLetter?_eq_none fun c hc => by simpa using fun hink => hnone ⟨c, hc, hink⟩] at hs
      cases hs
    rw [hg] at h
    rw [hadd, addProse_groups, hmarker]
    exact h.mark (.of_mem ht ((b.dropDoubled_keepsInk t).sublist.subset hc) hspace)

theorem pieces {earlier : List Group} {start : Nat} {t : Text} (ht : t <+: text.drop start)
    {groups : List Group} {cursor : Nat} {b : Builder}
    (h : Parted text (b.built.filterMap Fragment.group? ++ earlier) b.pending (start + cursor))
    (hordered : groups.Pairwise fun g h => g.stop ≤ h.start)
    (hinside : ∀ g ∈ groups, g.start ≤ g.stop ∧ g.stop ≤ t.length)
    (hcursor : ∀ g ∈ groups, cursor ≤ g.start) (hle : cursor ≤ t.length) :
    let b' := (Markup.piecesFrom t cursor groups).foldl (Builder.add start) b
    Parted text (b'.built.filterMap Fragment.group? ++ earlier) b'.pending (start + t.length) := by
  have hfrom : t.drop cursor <+: text.drop (start + cursor) := by
    rw [← List.drop_drop]
    exact ht.drop cursor
  induction groups generalizing cursor b with
  | nil =>
    have hlength : start + cursor + (t.drop cursor).length = start + t.length := by
      rw [List.length_drop]
      omega
    have hprose := h.addProse hfrom
    rwa [hlength] at hprose
  | cons g groups ih =>
    obtain ⟨hfirst, hordered⟩ := List.pairwise_cons.mp hordered
    obtain ⟨hg, hinside⟩ := List.forall_mem_cons.mp hinside
    have hgap := hcursor g (List.mem_cons_self ..)
    have hslice : Text.slice t cursor g.start <+: text.drop (start + cursor) := by
      rw [Text.slice, List.drop_take]
      exact (List.take_prefix _ _).trans hfrom
    have hreach :
        start + cursor + (Text.slice t cursor g.start).length ≤ (g.shift start).start := by
      rw [Text.slice_length (Nat.le_trans hg.1 hg.2), Group.start_shift]
      omega
    have hnext := (h.addProse hslice).addGroup hreach
    rw [Group.stop_shift, Nat.add_comm g.stop] at hnext
    refine ih hnext hordered hinside hfirst hg.2 ?_
    rw [← List.drop_drop]
    exact ht.drop g.stop

end Parted

/-- A line keeps the groups apart, if it is shown from an offset on that the rendering has not
passed yet. -/
theorem render_parted {text : Text} {earlier : List Group} {pending : Option Group} {reach : Nat}
    (h : Parted text earlier pending reach) {s : Slice} (hreach : reach ≤ s.start)
    (hs : s.shown <+: text.drop s.start) :
    Parted text ((render pending s).1.groups.reverse ++ earlier) (render pending s).2
      (s.start + s.shown.length) := by
  have hline := Parted.pieces (b := { pending }) hs (h.mono hreach)
    (Markup.groups_ordered s.shown) (fun g hg => Markup.group_inside hg)
    (fun g _ => Nat.zero_le _) (Nat.zero_le _)
  have hgroups : (render pending s).1.groups.reverse =
      ((Markup.pieces s.shown).foldl (Builder.add s.start) { pending }).built.filterMap
        Fragment.group? := by
    rw [render, RenderedLine.groups, ← List.filterMap_reverse, List.reverse_reverse]
  rw [hgroups]
  exact hline

/-- **The groups of a rendering are apart in the text.** This holds of any lines that are shown from
where they stand in it, one behind the other. -/
theorem renderAll_parted {text : Text} {earlier : List Group} {pending : Option Group}
    {slices : List Slice} {reach : Nat} (h : Parted text earlier pending reach)
    (hs : ∀ s ∈ slices, reach ≤ s.start ∧ s.shown <+: text.drop s.start)
    (hordered : slices.Pairwise fun s s' => s.start + s.shown.length ≤ s'.start) :
    ∃ reach', Parted text
      (((renderAll pending slices).1.flatMap RenderedLine.groups).reverse ++ earlier)
      (renderAll pending slices).2 reach' := by
  induction slices generalizing earlier pending reach with
  | nil => exact ⟨reach, h⟩
  | cons s slices ih =>
    obtain ⟨⟨hreach, hshown⟩, hs⟩ := List.forall_mem_cons.mp hs
    obtain ⟨hfirst, hordered⟩ := List.pairwise_cons.mp hordered
    have hline := render_parted h hreach hshown
    obtain ⟨reach', hrest⟩ := ih hline (fun s' hs' => ⟨hfirst s' hs', (hs s' hs').2⟩) hordered
    refine ⟨reach', ?_⟩
    rw [renderAll, List.flatMap_cons, List.reverse_append, List.append_assoc]
    exact hrest

end Line

end CuedProse
