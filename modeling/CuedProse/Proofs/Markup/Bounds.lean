import CuedProse.Proofs.Markup.Context
import CuedProse.Proofs.Text.Access

/-!
# Scanning in bytes

A scanner that works on the bytes of a text looks the next character of the opening mark up in a
table, and cuts the markup of a cue out of the text at the byte offsets of its two brackets. Both
may fail. They never do: a candidate that is still in its opening mark waits for one of its
characters, and a bracket is a character of the text, so that the bytes can be cut there.

* `ByteScanner.step?`, `cues?`: scanning with both accesses checked.
* `ByteScanner.Read.step?_eq_some`: one character is read as it is without them.
* `cues?_eq_some`: so scanning finds the cues of any text.
* `hideUnfinished?_eq_some`: nor does hiding what is unfinished cut through a character.
-/
namespace CuedProse

def Cue.length? (c : Cue) : Option Nat := sub? c.stop c.start

namespace Markup

/-! ## Definitions -/

/-- A scanner that also counts bytes. -/
structure ByteScanner where
  scanner : Scanner := {}
  /-- The byte offset of the next character. -/
  byte : Nat := 0
  /-- The byte offset of the last opening bracket. -/
  startByte : Nat := 0

/-- Looks up the character of the opening mark that a candidate waits for, if it is still in it. -/
def Scanner.awaited? (s : Scanner) : Option (Option Char) :=
  match s.candidate with
  | some ⟨_, .opening matched⟩ => openingMark[matched]?.map some
  | _ => some none

namespace ByteScanner

/-- Reads one character of `t`. What the opening mark goes on with is looked up first, and the
markup of a cue is cut out of `t`. -/
def step? (t : Text) (s : ByteScanner) (c : Char) : Option (ByteScanner × Option Cue) := do
  let _ ← s.scanner.awaited?
  let (scanner, cue) := s.scanner.step c
  let next : ByteScanner :=
    ⟨scanner, s.byte + c.utf8Size, if c = '[' then s.byte else s.startByte⟩
  match cue with
  | none => return (next, none)
  | some cue =>
    let markup ← Text.byteSlice? t s.startByte next.byte
    return (next, some { cue with markup })

def cues? (t : Text) (s : ByteScanner) : Text → Option (List Cue)
  | [] => some []
  | c :: rest => do
    let (s, cue) ← s.step? t c
    let cues ← s.cues? t rest
    return cue.toList ++ cues

end ByteScanner

/-- All cues of `t`, found by a scanner that counts bytes. -/
def cues? (t : Text) : Option (List Cue) := ({} : ByteScanner).cues? t t

/-- `hideMarkStart`, with as many bytes taken away at the end as the beginning of the mark has. -/
def hideMarkStart? (t : Text) : Option Text :=
  match [4, 3, 2, 1].find? (fun n => (openingMark.take n).isSuffixOf t) with
  | some n => do
    let count ← sub? (Text.byteLength t) n
    let (shown, _) ← Text.cutAt? count t
    return shown
  | none => some t

/-- `hideUnfinished`, with the text cut at the byte offset of the last opening mark. -/
def hideUnfinished? (t : Text) : Option Text :=
  match lastOccurrence? openingMark t with
  | some k => do
    let (shown, rest) ← Text.cutAt? (Text.byteLength (t.take k)) t
    if rest.contains ']' then hideMarkStart? t else return shown
  | none => hideMarkStart? t

/-! ## What the bytes say -/

open Text

/-- The scanner has read `u`, and its two byte offsets are those of the end of `u` and of the
bracket that opens the candidate. -/
structure ByteScanner.Read (s : ByteScanner) (u : Text) : Prop where
  scanner : s.scanner.Read u
  byte : s.byte = byteLength u
  startByte : ∀ k, s.scanner.candidate = some k → s.startByte = byteLength (u.take k.start)

variable {s : ByteScanner} {u t : Text} {c : Char}

/-- A candidate in its opening mark waits for one of its characters. -/
theorem Scanner.Read.awaited?_isSome {s : Scanner} (h : s.Read u) : ∃ a, s.awaited? = some a := by
  unfold awaited?
  split
  · rename_i start matched hk
    obtain ⟨⟨-, hmatched⟩, -⟩ := (h.candidate _ _).mp hk
    exact ⟨some openingMark[matched], by rw [List.getElem?_eq_getElem hmatched]; rfl⟩
  · exact ⟨none, rfl⟩

theorem ByteScanner.read_nil : ({} : ByteScanner).Read [] := ⟨Scanner.read_nil, rfl, nofun⟩

theorem ByteScanner.Read.next (h : s.Read u) (c : Char) :
    Read ⟨(s.scanner.step c).1, s.byte + c.utf8Size, if c = '[' then s.byte else s.startByte⟩
      (u ++ [c]) := by
  refine ⟨h.scanner.step c, ?_, fun k hk => ?_⟩
  · rw [byteLength_append, ← h.byte]
    rfl
  · by_cases hc : c = '['
    · simp only [hc, h.scanner.candidate_bracket] at hk
      rw [if_pos hc, h.byte, ← Option.some.inj hk, List.take_left]
    · obtain ⟨j, hj, hstart⟩ := Scanner.candidate_step hc hk
      rw [if_neg hc, h.startByte j hj, ← hstart,
        List.take_append_of_le_length (Nat.le_of_lt (h.scanner.start_lt hj))]

/-- The markup of a cue is what stands between the byte offsets of its brackets. -/
theorem ByteScanner.Read.markup (h : s.Read u) {cue : Cue} {rest : Text}
    (hcue : (s.scanner.step c).2 = some cue) :
    byteSlice? (u ++ c :: rest) s.startByte (s.byte + c.utf8Size) = some cue.markup := by
  rw [Scanner.step_cue] at hcue
  split at hcue
  · rename_i hc
    unfold Scanner.closing? at hcue
    split at hcue
    · rename_i start read hk
      obtain ⟨-, before, hu, hbefore⟩ := (h.scanner.candidate _ _).mp hk
      have hlt := h.scanner.start_lt hk
      have hstart : s.startByte = byteLength ((u ++ c :: rest).take start) := by
        rw [h.startByte _ hk, List.take_append_of_le_length (Nat.le_of_lt hlt)]
      have hend : (u ++ c :: rest).take (u.length + 1) = u ++ [c] := by
        rw [List.take_append, Nat.add_sub_cancel_left, List.take_of_length_le (Nat.le_succ _)]
        rfl
      have hstop : s.byte + c.utf8Size = byteLength ((u ++ c :: rest).take (u.length + 1)) := by
        rw [hend, byteLength_append, ← h.byte]
        rfl
      rw [hstart, hstop, byteSlice?_byteLength _ (Nat.le_succ_of_le (Nat.le_of_lt hlt)), slice, hend,
        (cueOfBody?_place hcue).2.2, hc, hu, ← hbefore, List.append_assoc, List.drop_left]
      rfl
    · cases hcue
  · cases hcue

theorem ByteScanner.Read.step?_eq_some (h : s.Read u) (c : Char) (rest : Text) :
    ∃ next : ByteScanner, next.Read (u ++ [c]) ∧ next.scanner = (s.scanner.step c).1 ∧
      s.step? (u ++ c :: rest) c = some (next, (s.scanner.step c).2) := by
  refine ⟨_, h.next c, rfl, ?_⟩
  obtain ⟨a, ha⟩ := h.scanner.awaited?_isSome
  unfold step?
  rw [ha]
  simp only [bind, Option.bind_some]
  cases hcue : (s.scanner.step c).2 with
  | none => rfl
  | some cue =>
    simp only [h.markup hcue, Option.bind_some]
    rfl

theorem ByteScanner.Read.cues?_eq_some (h : s.Read u) (rest : Text) :
    s.cues? (u ++ rest) rest = some (s.scanner.cues rest) := by
  induction rest generalizing s u with
  | nil => rfl
  | cons c rest ih =>
    obtain ⟨next, hnext, hscanner, hstep⟩ := h.step?_eq_some c rest
    have hrest := ih hnext
    rw [List.append_assoc, List.singleton_append, hscanner] at hrest
    unfold cues?
    rw [hstep]
    simp only [bind, Option.bind_some, hrest]
    rfl

theorem cues?_eq_some (t : Text) : cues? t = some (cues t) :=
  ByteScanner.read_nil.cues?_eq_some t

theorem length?_eq_some {cue : Cue} (h : cue ∈ cues t) : cue.length? = some cue.length :=
  sub?_of_le (Nat.le_of_lt (start_lt_stop h))

/-! ## Hiding what is unfinished -/

/-- A beginning of the opening mark has as many bytes as characters. -/
theorem hideMarkStart?_eq_some (t : Text) : hideMarkStart? t = some (hideMarkStart t) := by
  unfold hideMarkStart? hideMarkStart
  cases hfind : [4, 3, 2, 1].find? (fun n => (openingMark.take n).isSuffixOf t) with
  | none => rfl
  | some n =>
    have hsuffix : (openingMark.take n).isSuffixOf t = true :=
      List.find?_some (p := fun n => (openingMark.take n).isSuffixOf t) hfind
    obtain ⟨v, hv⟩ := List.isSuffixOf_iff_suffix.mp hsuffix
    have hsize : byteLength (openingMark.take n) = n ∧ (openingMark.take n).length = n :=
      (by decide : ∀ n ∈ [4, 3, 2, 1], byteLength (openingMark.take n) = n ∧
        (openingMark.take n).length = n) n (List.mem_of_find?_eq_some hfind)
    have hcount : sub? (byteLength t) n = some (byteLength v) := by
      rw [← hv, byteLength_append, hsize.1, sub?_of_le (Nat.le_add_left ..), Nat.add_sub_cancel]
    have hshown : t.take (t.length - n) = v := by
      rw [← hv, List.length_append, hsize.2, Nat.add_sub_cancel, List.take_left]
    have hcut : cutAt? (byteLength v) t = some (v, openingMark.take n) :=
      cutAt?_eq_some_iff.mpr ⟨hv.symm, rfl⟩
    simp only [hcount, hshown, bind, Option.bind_some, hcut]
    rfl

theorem hideUnfinished?_eq_some (t : Text) : hideUnfinished? t = some (hideUnfinished t) := by
  unfold hideUnfinished? hideUnfinished
  cases lastOccurrence? openingMark t with
  | none => exact hideMarkStart?_eq_some t
  | some k =>
    have hcut : cutAt? (byteLength (t.take k)) t = some (t.take k, t.drop k) :=
      cutAt?_eq_some_iff.mpr ⟨(List.take_append_drop k t).symm, rfl⟩
    simp only [bind, hcut, Option.bind_some]
    by_cases hclosed : (t.drop k).contains ']' = true
    · rw [if_pos hclosed, if_pos hclosed]
      exact hideMarkStart?_eq_some t
    · rw [if_neg hclosed, if_neg hclosed]
      rfl

end Markup

end CuedProse
