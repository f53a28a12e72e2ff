import Mathlib.Data.List.Chain
import CuedProse.Proofs.Cue.Grouping
import CuedProse.Proofs.Line.Markers

/-!
# Blocks of groups

The same cues can be grouped more coarsely or less. If a coarse group never ends where a fine one
goes on, each coarse group is a block of neighbouring fine ones.

* `runs_isChain`, `runs_apart`: the neighbours in a group of `runs` belong together, and where a
  group ends they do not; `gather_isChain` and `gather_apart` say so of the groups of ordered cues.
* `exists_blocks`: a grouping that parts only cues that do not belong together is made of blocks.
* `exists_shown`: the groups that begin in front of an offset are the first ones, and only the last
  of them may end behind it.
* `ShowBlocks`: what is shown of groups is made of blocks of them.
* `eq_of_mem_cues`, `eq_of_mem_blocks`: a cue is in one group only, and a group in one block, so
  cues of one group are shown together (`ShowBlocks.index_eq`).
-/
namespace CuedProse.Group

theorem first_mem (g : Group) : g.first ∈ g.cues := List.mem_cons_self ..

theorem getLast?_cues (g : Group) : g.cues.getLast? = some g.last := by
  rw [cues, last, List.getLast?_cons, List.getLastD_eq_getLast?]

theorem last_mem (g : Group) : g.last ∈ g.cues := List.mem_of_getLast? g.getLast?_cues

theorem last_eq_of_cues {g h : Group} {cs : List Cue} (hg : g.cues = cs ++ h.cues) :
    g.last = h.last := by
  have hlast : g.cues.getLast? = h.cues.getLast? := by
    rw [hg, List.getLast?_append_of_ne_nil _ (by simp [cues])]
  rw [getLast?_cues, getLast?_cues] at hlast
  exact Option.some.inj hlast

variable {joins : Cue → Cue → Bool}

theorem runs_isChain {g : Group} (hg : g.cues.IsChain (joins · ·)) (cues : List Cue) :
    ∀ h ∈ runs joins g cues, h.cues.IsChain (joins · ·) := by
  induction cues generalizing g with
  | nil => simpa [runs] using hg
  | cons c cues ih =>
    unfold runs
    split
    · rename_i hjoins
      refine ih ?_
      rw [cues_push, List.isChain_append]
      refine ⟨hg, .singleton c, fun x hx y hy => ?_⟩
      rw [getLast?_cues] at hx
      cases hx
      cases hy
      exact hjoins
    · exact List.forall_mem_cons.mpr ⟨hg, ih (.singleton c)⟩

theorem cons_runs_apart {p : Group} (g : Group) (cues : List Cue)
    (hp : joins p.last g.first = false) :
    (p :: runs joins g cues).IsChain fun g h => joins g.last h.first = false := by
  induction cues generalizing p g with
  | nil => exact List.isChain_cons_cons.mpr ⟨hp, .singleton g⟩
  | cons c cues ih =>
    unfold runs
    split
    · exact ih (g.push c) hp
    · rename_i hnot
      exact List.isChain_cons_cons.mpr ⟨hp, ih ⟨c, []⟩ (Bool.eq_false_iff.mpr hnot)⟩

/-- The last cue of a group and the first of the next do not belong together. -/
theorem runs_apart (g : Group) (cues : List Cue) :
    (runs joins g cues).IsChain fun g h => joins g.last h.first = false := by
  induction cues generalizing g with
  | nil => exact .singleton g
  | cons c cues ih =>
    unfold runs
    split
    · exact ih (g.push c)
    · rename_i hnot
      exact cons_runs_apart ⟨c, []⟩ cues (Bool.eq_false_iff.mpr hnot)

section
variable {t : Text} {cues : List Cue} (hordered : cues.Pairwise fun c d => c.start ≤ d.start)
  (hinside : ∀ c ∈ cues, c.Inside t)

include hordered hinside

theorem gather_isChain : ∀ g ∈ gather t cues, g.cues.IsChain (joined t · ·) := by
  cases cues with
  | nil => simp [gather]
  | cons c cues =>
    rw [gather_eq_runs hordered hinside]
    exact runs_isChain (.singleton c) cues

theorem gather_apart :
    (gather t cues).IsChain fun g h => joined t g.last h.first = false := by
  cases cues with
  | nil => exact .nil
  | cons c cues =>
    rw [gather_eq_runs hordered hinside]
    exact runs_apart ⟨c, []⟩ cues

end

/-- A part does not end inside a group. -/
theorem exists_rest {g p : Group} {ps : List Group} {cs : List Cue}
    (hg : g.cues.IsChain (joins · ·))
    (hparts : (p :: ps).IsChain fun p q => joins p.last q.first = false)
    (hcues : allCues (p :: ps) = g.cues ++ cs) :
    ∃ rest, p.cues = g.cues ++ rest ∧ cs = rest ++ allCues ps := by
  rw [allCues_cons, List.append_eq_append_iff] at hcues
  obtain ⟨inside, hinside, hrest⟩ | hbehind := hcues
  · cases inside with
    | nil => exact ⟨[], by simpa using hinside.symm, hrest.symm⟩
    | cons c inside =>
      -- the next part would begin inside the group
      cases ps with
      | nil => cases hrest
      | cons q qs =>
        have hq : q.first = c := (List.cons.inj hrest).1
        have hapart := (List.isChain_cons_cons.mp hparts).1
        rw [hinside, List.isChain_append] at hg
        rw [hq, hg.2.2 _ p.getLast?_cues c rfl] at hapart
        cases hapart
  · exact hbehind

/-- The groups `parts`, of the same cues as the groups `shown g` for `g` in `groups`, are made of
blocks of them, if neighbours in a group belong together and neighbouring parts do not. -/
theorem exists_blocks {shown : Group → Group} {groups : List Group} {parts : List Group}
    (hgroups : ∀ g ∈ groups, (shown g).cues.IsChain (joins · ·))
    (hparts : parts.IsChain fun p q => joins p.last q.first = false)
    (hcues : allCues parts = allCues (groups.map shown)) :
    ∃ blocks : List (List Group), groups = blocks.flatten ∧ [] ∉ blocks ∧
      parts.map cues = blocks.map fun gs => allCues (gs.map shown) := by
  induction groups generalizing parts with
  | nil =>
    cases parts with
    | nil => exact ⟨[], rfl, by simp, rfl⟩
    | cons p ps => cases hcues
  | cons g groups ih =>
    obtain ⟨hg, hgroups⟩ := List.forall_mem_cons.mp hgroups
    cases parts with
    | nil => cases hcues
    | cons p ps =>
      obtain ⟨rest, hp, hrest⟩ := exists_rest hg hparts hcues
      cases rest with
      | nil =>
        obtain ⟨blocks, hflatten, hnonempty, hmap⟩ := ih hgroups hparts.of_cons hrest.symm
        refine ⟨[g] :: blocks, by rw [hflatten]; rfl, by simpa using hnonempty, ?_⟩
        rw [List.map_cons, List.map_cons, hmap, hp]
        rfl
      | cons c rest =>
        -- what is left of the part goes on with the next groups
        have hlast : p.last = (⟨c, rest⟩ : Group).last := last_eq_of_cues hp
        have hparts' : ((⟨c, rest⟩ : Group) :: ps).IsChain fun p q =>
            joins p.last q.first = false := by
          rw [List.isChain_cons] at hparts ⊢
          rwa [← hlast]
        obtain ⟨blocks, hflatten, hnonempty, hmap⟩ := ih hgroups hparts' hrest.symm
        cases blocks with
        | nil => cases hmap
        | cons b blocks =>
          obtain ⟨hb, hblocks⟩ := List.cons.inj hmap
          refine ⟨(g :: b) :: blocks, by rw [hflatten]; rfl, ?_, ?_⟩
          · simpa using fun h => hnonempty (List.mem_cons_of_mem _ h)
          · rw [List.map_cons, List.map_cons, hblocks, hp, List.map_cons, allCues_cons]
            exact congrArg (fun cs => ((shown g).cues ++ cs) :: _) hb

/-- A group without the cues behind its first one that end behind `raw`. -/
def upTo (raw : Nat) (g : Group) : Group := { g with others := g.others.filter (·.stop ≤ raw) }

theorem cues_upTo {raw : Nat} {g : Group} (h : g.first.stop ≤ raw) :
    (g.upTo raw).cues = g.cues.filter (·.stop ≤ raw) :=
  (List.filter_cons_of_pos (p := fun c : Cue => decide (c.stop ≤ raw)) (decide_eq_true h)).symm

theorem allCues_map_upTo {raw : Nat} {groups : List Group}
    (h : ∀ g ∈ groups, g.first.stop ≤ raw) :
    allCues (groups.map (upTo raw)) = (allCues groups).filter (·.stop ≤ raw) := by
  induction groups with
  | nil => rfl
  | cons g groups ih =>
    obtain ⟨hg, hgroups⟩ := List.forall_mem_cons.mp h
    rw [List.map_cons, allCues_cons, allCues_cons, List.filter_append, cues_upTo hg, ih hgroups]

/-- Of groups whose cues end one behind the other, those that begin in front of `raw` are the first
ones, and all but the last of them are in front of it as a whole. -/
theorem exists_shown {groups : List Group}
    (hordered : (allCues groups).Pairwise fun c d => c.stop ≤ d.stop) (raw : Nat) :
    ∃ shown behind, groups = shown ++ behind ∧
      (∀ g ∈ shown, g.first.stop ≤ raw) ∧
      (∀ g ∈ shown.dropLast, ∀ c ∈ g.cues, c.stop ≤ raw) ∧
      (∀ g ∈ behind, raw < g.first.stop) ∧
      (allCues groups).filter (·.stop ≤ raw) = allCues (shown.map (upTo raw)) := by
  induction groups with
  | nil => exact ⟨[], [], rfl, by simp, by simp, by simp, rfl⟩
  | cons g groups ih =>
    rw [allCues_cons] at hordered
    by_cases hg : g.first.stop ≤ raw
    · obtain ⟨-, hrest, hbetween⟩ := List.pairwise_append.mp hordered
      obtain ⟨shown, behind, hgroups, hshown, hwhole, hbehind, hcues⟩ := ih hrest
      refine ⟨g :: shown, behind, by rw [hgroups]; rfl, List.forall_mem_cons.mpr ⟨hg, hshown⟩,
        ?_, hbehind, ?_⟩
      · cases shown with
        | nil => simp
        | cons h shown =>
          have hfirst : h.first ∈ allCues groups := by
            rw [hgroups]
            simp [first_mem]
          rw [List.dropLast_cons_of_ne_nil (by simp), List.forall_mem_cons]
          refine ⟨fun c hc => ?_, hwhole⟩
          exact Nat.le_trans (hbetween c hc _ hfirst) (hshown h (List.mem_cons_self ..))
      · rw [allCues_cons, List.filter_append, List.map_cons, allCues_cons, cues_upTo hg, hcues]
    · -- no cue ends in front of the first one
      have hbehind : ∀ c ∈ allCues (g :: groups), raw < c.stop := by
        intro c hc
        rw [allCues_cons, cues, List.cons_append] at hc
        rcases List.mem_cons.mp hc with heq | hc
        · rw [heq]
          exact Nat.lt_of_not_le hg
        · exact Nat.lt_of_lt_of_le (Nat.lt_of_not_le hg) ((List.pairwise_cons.mp hordered).1 c hc)
      refine ⟨[], g :: groups, rfl, by simp, by simp, fun h hh => ?_, ?_⟩
      · exact hbehind _ (List.mem_flatMap.mpr ⟨h, hh, h.first_mem⟩)
      · rw [List.map_nil, allCues_nil, List.filter_eq_nil_iff]
        intro c hc hle
        exact Nat.not_le.mpr (hbehind c hc) (of_decide_eq_true hle)

/-- Each of `parts` has the cues of one of `blocks` up to `raw`. Every group begins in front of
`raw`, and only the last group of the last block may end behind it. -/
structure ShowBlocks (raw : Nat) (blocks : List (List Group)) (parts : List Group) : Prop where
  nonempty : [] ∉ blocks
  begun : ∀ g ∈ blocks.flatten, g.first.stop ≤ raw
  whole : ∀ g ∈ blocks.flatten.dropLast, ∀ c ∈ g.cues, c.stop ≤ raw
  cues_eq : parts.map cues = blocks.map fun gs => (allCues gs).filter (·.stop ≤ raw)

namespace ShowBlocks

variable {raw : Nat} {blocks : List (List Group)} {parts : List Group}

theorem length_eq (h : ShowBlocks raw blocks parts) : parts.length = blocks.length := by
  have := congrArg List.length h.cues_eq
  simpa using this

theorem of_append {earlier : List Group} (h : ShowBlocks raw blocks (earlier ++ parts)) :
    ∃ before rest, blocks = before ++ rest ∧ before.length = earlier.length ∧
      ShowBlocks raw rest parts := by
  have hcues := h.cues_eq
  rw [List.map_append, eq_comm, List.map_eq_append_iff] at hcues
  obtain ⟨before, rest, rfl, hbefore, hrest⟩ := hcues
  have hlength : before.length = earlier.length := by simpa using congrArg List.length hbefore
  refine ⟨before, rest, rfl, hlength, fun hmem => h.nonempty (List.mem_append_right _ hmem),
    fun g hg => h.begun g (by simp [List.flatten_append, hg]), fun g hg => h.whole g ?_, hrest.symm⟩
  have hne : rest.flatten ≠ [] := fun hnil => by simp [hnil] at hg
  rw [List.flatten_append, List.dropLast_append_of_ne_nil hne]
  exact List.mem_append_right _ hg

theorem exists_group (h : ShowBlocks raw blocks parts) {i : Nat} {p : Group}
    (hp : parts[i]? = some p) {c : Cue} (hc : c ∈ p.cues) :
    ∃ gs, blocks[i]? = some gs ∧ ∃ g ∈ gs, c ∈ g.cues := by
  have hget := congrArg (·[i]?) h.cues_eq
  simp only [List.getElem?_map, hp, Option.map_some] at hget
  obtain ⟨gs, hgs, hcues⟩ := Option.map_eq_some_iff.mp hget.symm
  rw [← hcues] at hc
  exact ⟨gs, hgs, List.mem_flatMap.mp (List.mem_of_mem_filter hc)⟩

end ShowBlocks

/-! ## Where a cue is -/

theorem groups_apart {groups : List Group}
    (h : (allCues groups).Pairwise fun c d => c.stop ≤ d.start) :
    groups.Pairwise fun g h => ∀ c ∈ g.cues, ∀ d ∈ h.cues, c.stop ≤ d.start :=
  (List.pairwise_flatMap.mp h).2

section

variable {groups : List Group} (hlt : ∀ c ∈ allCues groups, c.start < c.stop)
  (hapart : (allCues groups).Pairwise fun c d => c.stop ≤ d.start)

include hlt hapart

theorem eq_of_mem_cues {g h : Group} (hg : g ∈ groups) (hh : h ∈ groups) {c : Cue}
    (hcg : c ∈ g.cues) (hch : c ∈ h.cues) : g = h := by
  have hsymm : Std.Symm fun g h : Group => ∀ c, c ∈ g.cues → c ∈ h.cues → g = h :=
    ⟨fun g h hgh c hch hcg => (hgh c hcg hch).symm⟩
  refine List.Pairwise.forall_of_forall (R := fun g h => ∀ c, c ∈ g.cues → c ∈ h.cues → g = h)
    (fun _ _ _ _ _ => rfl) ?_ hg hh c hcg hch
  refine (groups_apart hapart).imp_of_mem fun hg _ hgh c hcg hch => ?_
  have := hgh c hcg c hch
  have := hlt c (List.mem_flatMap.mpr ⟨_, hg, hcg⟩)
  omega

variable {blocks : List (List Group)} (hblocks : blocks.flatten.Sublist groups)

include hblocks

theorem eq_of_mem_blocks {i j : Nat} {a b : List Group} (ha : blocks[i]? = some a)
    (hb : blocks[j]? = some b) {g : Group} (hga : g ∈ a) (hgb : g ∈ b) : i = j := by
  obtain ⟨hi, hia⟩ := List.getElem?_eq_some_iff.mp ha
  obtain ⟨hj, hjb⟩ := List.getElem?_eq_some_iff.mp hb
  have hbetween := List.pairwise_iff_getElem.mp
    (List.pairwise_flatten.mp ((groups_apart hapart).sublist hblocks)).2
  have hmem : g ∈ blocks.flatten := List.mem_flatten.mpr ⟨a, List.mem_of_getElem? ha, hga⟩
  have hfirst : g.first.start < g.first.stop :=
    hlt _ (List.mem_flatMap.mpr ⟨g, hblocks.subset hmem, g.first_mem⟩)
  rcases Nat.lt_trichotomy i j with hij | hij | hij
  · have := hbetween i j hi hj hij g (hia ▸ hga) g (hjb ▸ hgb) _ g.first_mem _ g.first_mem
    omega
  · exact hij
  · have := hbetween j i hj hi hij g (hjb ▸ hgb) g (hia ▸ hga) _ g.first_mem _ g.first_mem
    omega

theorem ShowBlocks.exists_block {raw : Nat} {parts : List Group} (h : ShowBlocks raw blocks parts)
    {i : Nat} {p : Group} (hp : parts[i]? = some p) {c : Cue} (hcp : c ∈ p.cues) {g : Group}
    (hg : g ∈ groups) (hc : c ∈ g.cues) : ∃ gs, blocks[i]? = some gs ∧ g ∈ gs := by
  obtain ⟨gs, hgs, g', hg', hc'⟩ := h.exists_group hp hcp
  have hmem : g' ∈ blocks.flatten := List.mem_flatten.mpr ⟨gs, List.mem_of_getElem? hgs, hg'⟩
  have heq : g' = g := eq_of_mem_cues hlt hapart (hblocks.subset hmem) hg hc' hc
  exact ⟨gs, hgs, heq ▸ hg'⟩

/-- Cues of one group are never in two parts. -/
theorem ShowBlocks.index_eq {raw : Nat} {parts : List Group} (h : ShowBlocks raw blocks parts)
    {g : Group} (hg : g ∈ groups) {c d : Cue} (hc : c ∈ g.cues) (hd : d ∈ g.cues) {i j : Nat}
    {p q : Group} (hp : parts[i]? = some p) (hq : parts[j]? = some q) (hcp : c ∈ p.cues)
    (hdq : d ∈ q.cues) : i = j := by
  obtain ⟨a, ha, hga⟩ := h.exists_block hlt hapart hblocks hp hcp hg hc
  obtain ⟨b, hb, hgb⟩ := h.exists_block hlt hapart hblocks hq hdq hg hd
  exact eq_of_mem_blocks hlt hapart hblocks ha hb hga hgb

end

theorem length_blocks_le {blocks : List (List Group)} (h : [] ∉ blocks) :
    blocks.length ≤ blocks.flatten.length := by
  induction blocks with
  | nil => exact Nat.le_refl _
  | cons b blocks ih =>
    rw [List.mem_cons, not_or] at h
    have hb : 0 < b.length := List.length_pos_iff.mpr (Ne.symm h.1)
    have hrest := ih h.2
    rw [List.flatten_cons, List.length_append, List.length_cons]
    omega

end CuedProse.Group
