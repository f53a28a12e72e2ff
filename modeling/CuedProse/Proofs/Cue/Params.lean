import Mathlib.Data.Finset.Card
import Mathlib.Data.List.Induction
import CuedProse.Cue.Params

/-!
# Parameters are an ordered map

* `keys_insert`, `get?_insert`: what setting one key does to the keys and to what they stand for.
* `keys_ofList`: the keys come in the order in which they were set first.
* `get?_ofList`: a key stands for the value it was given last.
* `eq_of_keys_of_get?`: parameters are no more than their keys in order and what the keys stand for.
* `ofList_ordered`: all this of any parameters, however they were set.
-/
namespace CuedProse.Params

def keys (p : Params) : List Text := p.entries.map (·.1)

/-- The value that `pairs` give `key` last. -/
def lastValue? (pairs : List (Text × Text)) (key : Text) : Option Text :=
  (pairs.filter fun e => e.1 = key).getLast?.map (·.2)

/-! ## Setting one key -/

theorem keys_setEntry (key value : Text) (entries : List (Text × Text)) :
    (setEntry key value entries).map (·.1) =
      if key ∈ entries.map (·.1) then entries.map (·.1) else entries.map (·.1) ++ [key] := by
  induction entries with
  | nil => rfl
  | cons e entries ih =>
    obtain ⟨k, v⟩ := e
    unfold setEntry
    by_cases hk : k = key
    · simp [hk]
    · have hkey : key ≠ k := Ne.symm hk
      simp only [if_neg hk, List.map_cons, ih, List.mem_cons, hkey, false_or]
      split <;> rfl

theorem keys_insert (p : Params) (key value : Text) :
    (p.insert key value).keys = if key ∈ p.keys then p.keys else p.keys ++ [key] :=
  keys_setEntry key value p.entries

theorem find?_setEntry (key value other : Text) (entries : List (Text × Text)) :
    (setEntry key value entries).find? (fun e => e.1 = other) =
      if other = key then some (key, value) else entries.find? fun e => e.1 = other := by
  induction entries with
  | nil =>
    by_cases hother : other = key
    · simp [setEntry, hother]
    · simp [setEntry, hother, Ne.symm hother]
  | cons e entries ih =>
    obtain ⟨k, v⟩ := e
    unfold setEntry
    by_cases hk : k = key
    · by_cases hother : other = key
      · simp [hk, hother]
      · simp [hk, hother, Ne.symm hother]
    · by_cases hother : other = key
      · rw [if_pos hother] at ih
        simp [hk, hother ▸ ih, hother]
      · rw [if_neg hother] at ih
        simp [hk, List.find?_cons, ih, hother]

theorem get?_insert (p : Params) (key value other : Text) :
    (p.insert key value).get? other = if other = key then some value else p.get? other := by
  unfold get? insert
  rw [find?_setEntry]
  split <;> rfl

/-! ## Setting keys one after the other -/

theorem ofList_append_singleton (pairs : List (Text × Text)) (e : Text × Text) :
    ofList (pairs ++ [e]) = (ofList pairs).insert e.1 e.2 := by
  rw [ofList, List.foldl_append]
  rfl

theorem keys_ofList (pairs : List (Text × Text)) :
    (ofList pairs).keys = (pairs.map (·.1)).eraseDups := by
  induction pairs using List.reverseRecOn with
  | nil => rfl
  | append_singleton pairs e ih =>
    rw [ofList_append_singleton, keys_insert, ih, List.map_append, List.eraseDups_append]
    by_cases hmem : e.1 ∈ pairs.map (·.1)
    · rw [if_pos (List.mem_eraseDups.mpr hmem)]
      simp [List.removeAll, hmem]
    · rw [if_neg (mt List.mem_eraseDups.mp hmem)]
      simp [List.removeAll, hmem, List.eraseDups_cons]

/-- A key stands for the value it was given last. -/
theorem get?_ofList (pairs : List (Text × Text)) (key : Text) :
    (ofList pairs).get? key = lastValue? pairs key := by
  induction pairs using List.reverseRecOn with
  | nil => rfl
  | append_singleton pairs e ih =>
    rw [ofList_append_singleton, get?_insert, ih, lastValue?, lastValue?, List.filter_append]
    by_cases hkey : e.1 = key
    · simp [hkey]
    · simp [hkey, Ne.symm hkey]

theorem nodup_keys_insert {p : Params} (h : p.keys.Nodup) (key value : Text) :
    (p.insert key value).keys.Nodup := by
  rw [keys_insert]
  by_cases hkey : key ∈ p.keys
  · rwa [if_pos hkey]
  · rw [if_neg hkey]
    exact List.nodup_append'.mpr ⟨h, List.nodup_singleton key, by simpa using hkey⟩

theorem nodup_keys_ofList (pairs : List (Text × Text)) : (ofList pairs).keys.Nodup := by
  induction pairs using List.reverseRecOn with
  | nil => exact List.nodup_nil
  | append_singleton pairs e ih =>
    rw [ofList_append_singleton]
    exact nodup_keys_insert ih e.1 e.2

/-! ## What parameters are -/

theorem get?_eq_none_iff {p : Params} {key : Text} : p.get? key = none ↔ key ∉ p.keys := by
  simp only [get?, keys, Option.map_eq_none_iff, List.find?_eq_none, decide_eq_true_eq,
    List.mem_map, not_exists, not_and]

theorem get?_cons {k v key : Text} {entries : List (Text × Text)} :
    get? ⟨(k, v) :: entries⟩ key = if key = k then some v else get? ⟨entries⟩ key := by
  by_cases hkey : key = k
  · simp [get?, hkey]
  · simp [get?, hkey, Ne.symm hkey]

/-- Parameters with distinct keys are no more than the keys in order and what they stand for. -/
theorem eq_of_keys_of_get? {p q : Params} (hp : p.keys.Nodup) (hkeys : p.keys = q.keys)
    (hget : ∀ key, p.get? key = q.get? key) : p = q := by
  obtain ⟨es⟩ := p
  obtain ⟨fs⟩ := q
  congr 1
  induction es generalizing fs with
  | nil =>
    cases fs with
    | nil => rfl
    | cons f fs => cases hkeys
  | cons e es ih =>
    obtain ⟨k, v⟩ := e
    cases fs with
    | nil => cases hkeys
    | cons f fs =>
      obtain ⟨l, w⟩ := f
      obtain ⟨hk, hrest⟩ : k = l ∧ keys ⟨es⟩ = keys ⟨fs⟩ := List.cons.inj hkeys
      obtain ⟨hfirst, hnodup⟩ : k ∉ keys ⟨es⟩ ∧ (keys ⟨es⟩).Nodup := List.nodup_cons.mp hp
      simp only [get?_cons, ← hk] at hget
      have hvalue : v = w := by simpa using hget k
      have hes : es = fs := ih hnodup fs hrest fun key => by
        by_cases hkey : key = k
        · rw [hkey, get?_eq_none_iff.mpr hfirst, get?_eq_none_iff.mpr (hrest ▸ hfirst)]
        · simpa [hkey] using hget key
      rw [hk, hvalue, hes]

theorem size_ofList (pairs : List (Text × Text)) :
    (ofList pairs).size = (pairs.map (·.1)).toFinset.card := by
  have hset : (ofList pairs).keys.toFinset = (pairs.map (·.1)).toFinset := by
    ext key
    rw [keys_ofList, List.mem_toFinset, List.mem_toFinset, List.mem_eraseDups]
  rw [← hset, List.toFinset_card_of_nodup (nodup_keys_ofList pairs), keys, List.length_map, size]

/-- **Parameters are an ordered map.** Whatever keys are set, one after the other or all at once,
they are distinct and come in the order in which they were set first; each stands for the value it
was given last, and a key that was never set for none; there are as many parameters as different
keys. Two ways of setting keys come to the same just if each key comes first in the same order and
was given the same value last. -/
theorem ofList_ordered (pairs : List (Text × Text)) :
    (empty = ofList [] ∧
        ∀ key value, (ofList pairs).insert key value = ofList (pairs ++ [(key, value)])) ∧
      (ofList pairs).keys.Nodup ∧
      (ofList pairs).keys = (pairs.map (·.1)).eraseDups ∧
      (∀ key, (ofList pairs).get? key = lastValue? pairs key) ∧
      (∀ key, (ofList pairs).get? key = none ↔ ∀ e ∈ pairs, e.1 ≠ key) ∧
      (ofList pairs).size = (pairs.map (·.1)).toFinset.card ∧
      ∀ others, ofList others = ofList pairs ↔
        (others.map (·.1)).eraseDups = (pairs.map (·.1)).eraseDups ∧
          ∀ key, lastValue? others key = lastValue? pairs key := by
  refine ⟨⟨rfl, fun key value => (ofList_append_singleton pairs (key, value)).symm⟩,
    nodup_keys_ofList pairs, keys_ofList pairs, get?_ofList pairs, fun key => ?_,
    size_ofList pairs, fun others => ⟨fun h => ?_, fun h => ?_⟩⟩
  · rw [get?_eq_none_iff, keys_ofList, List.mem_eraseDups, List.mem_map]
    simp only [not_exists, not_and]
  · simp only [← keys_ofList, ← get?_ofList, h, implies_true, and_self]
  · obtain ⟨hkeys, hvalues⟩ := h
    refine eq_of_keys_of_get? (nodup_keys_ofList others) ?_ fun key => ?_
    · rw [keys_ofList, keys_ofList, hkeys]
    · rw [get?_ofList, get?_ofList, hvalues]

/-- A key that comes again keeps its place and takes the new value. -/
example : ofList [(['b'], ['1']), (['a'], ['2']), (['b'], ['3'])] =
    ⟨[(['b'], ['3']), (['a'], ['2'])]⟩ := by decide

end CuedProse.Params
