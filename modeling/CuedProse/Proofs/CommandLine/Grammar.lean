import Mathlib.Data.List.Induction
import CuedProse.CommandLine.Play
import CuedProse.Proofs.CommandLine.Numeral

/-!
# The grammar of a command line

A command line is a list of items: words, and options that take a number, each with the argument
behind it, whatever that is. What an item may be depends on those before it only in that no second
file may be given.

* `items`: the items of a command line; `items_flatMap_arguments`: their order can be changed.
* `Offends`: what can be wrong with an item; `Asks`: the settings that items ask for.
* `readFrom_item`: reading goes on behind an item that is in order, with the settings it asks for.
* `read_sound`: so it gets past all items that are in order, and `exists_stop` says where it stops.
* `readArguments_eq_help_iff`, `readArguments_eq_play_iff`, `readArguments_eq_error_iff`: what each
  of the answers says about the items.
* `code_play_eq_zero_iff`: a command that is played fails just if its file cannot be read.
* `readArguments_grammar`: all this of every command line, and that items may be moved.
-/
namespace CuedProse.CommandLine

/-! ## Items -/

inductive Item where
  /-- An argument where an option may stand. -/
  | word (argument : String)
  /-- An option that takes a number, with the argument behind it. -/
  | number (option : NumberOption) (value : String)
  /-- An option that takes a number, with nothing behind it. -/
  | bare (option : NumberOption)
  deriving DecidableEq, Repr

/-- The option that takes a number and is written `argument`. -/
def NumberOption.ofFlag? (argument : String) : Option NumberOption :=
  if argument = "--steps" then some .steps
  else if argument = "--window" then some .window
  else none

/-- The items of a command line, from left to right. -/
def items : List String → List Item
  | [] => []
  | a :: rest =>
    match NumberOption.ofFlag? a with
    | none => .word a :: items rest
    | some option =>
      match rest with
      | [] => [.bare option]
      | value :: rest => .number option value :: items rest

/-- What calls for help. -/
def helpFlags : List String := ["-h", "--help"]

/-- The other options that take no number. -/
def flags : List String := ["--every-crossing", "--back", "-v", "--verbose"]

def isFile (argument : String) : Bool := argument.toList.head? != some '-'

namespace Item

def arguments : Item → List String
  | word a => [a]
  | number option value => [option.flag, value]
  | bare option => [option.flag]

def CallsHelp (i : Item) : Prop := ∃ a ∈ helpFlags, i = word a

/-- The item is read as it stands, whatever follows it. -/
def Closed : Item → Prop
  | word a => NumberOption.ofFlag? a = none
  | number .. => True
  | bare _ => False

def file? : Item → Option String
  | word a => if isFile a then some a else none
  | _ => none

/-- The value that the item gives to `option`. -/
def value? (option : NumberOption) : Item → Option String
  | number o value => if o = option then some value else none
  | _ => none

end Item

def files (is : List Item) : List String := is.filterMap Item.file?

/-- The values that some items give to `option`, in order. -/
def values (option : NumberOption) (is : List Item) : List String :=
  is.filterMap (Item.value? option)

/-- What is wrong with an item that stands behind the items `before`. -/
inductive Offends (before : List Item) : Item → ArgumentError → Prop
  | unknown {a : String} (hfile : isFile a = false) (hflag : a ∉ flags) (hhelp : a ∉ helpFlags) :
    Offends before (.word a) (.unknownOption a)
  | second {a : String} (hfile : isFile a = true) (hbefore : files before ≠ []) :
    Offends before (.word a) .secondFile
  | missing {option : NumberOption} : Offends before (.bare option) (.missingValue option)
  | invalid {option : NumberOption} {value : String} (hvalue : ∀ n, ¬ Writes value n) :
    Offends before (.number option value) (.invalidValue option value)

/-- Nothing is wrong with any of the items. -/
def Sound (is : List Item) : Prop :=
  ∀ before i after, is = before ++ i :: after → ∀ e, ¬ Offends before i e

/-- The number that is set for `option` is the last one given, and `default` if there is none. -/
def SetTo (is : List Item) (option : NumberOption) (default n : Nat) : Prop :=
  match (values option is).getLast? with
  | none => n = default
  | some value => Writes value n

/-- The settings that some items ask for. -/
structure Asks (is : List Item) (s : Settings) : Prop where
  steps : SetTo is .steps 10 s.steps
  window : SetTo is .window 5 s.window
  policy : s.policy = if .word "--every-crossing" ∈ is then .everyCrossing else .once
  back : s.back = true ↔ .word "--back" ∈ is
  verbose : s.verbose = true ↔ .word "-v" ∈ is ∨ .word "--verbose" ∈ is

/-! ## Small facts -/

variable {is before after : List Item} {i : Item} {a : String} {arguments rest : List String}
  {path : Option String} {s : Settings} {e : ArgumentError}

@[simp] theorem files_append (is js : List Item) : files (is ++ js) = files is ++ files js :=
  List.filterMap_append

@[simp] theorem values_append (option : NumberOption) (is js : List Item) :
    values option (is ++ js) = values option is ++ values option js :=
  List.filterMap_append

@[simp] theorem ofFlag?_flag (option : NumberOption) :
    NumberOption.ofFlag? option.flag = some option := by
  cases option <;> decide

theorem flag_of_ofFlag? {option : NumberOption} (h : NumberOption.ofFlag? a = some option) :
    option.flag = a := by
  unfold NumberOption.ofFlag? at h
  split at h
  · cases h
    exact (by assumption : a = "--steps").symm
  · split at h
    · cases h
      exact (by assumption : a = "--window").symm
    · cases h

theorem files_word (h : isFile a = true) : files (.word a :: after) = a :: files after :=
  List.filterMap_cons_some (if_pos h)

theorem exists_word_of_files (h : files [i] ≠ []) : ∃ a, i = .word a ∧ isFile a = true := by
  cases i with
  | word a =>
    by_cases hfile : isFile a = true
    · exact ⟨a, rfl, hfile⟩
    · simp [files, Item.file?, hfile] at h
  | number option value => exact absurd rfl h
  | bare option => exact absurd rfl h

/-- The items are all that is written. -/
theorem flatMap_items (arguments : List String) :
    (items arguments).flatMap Item.arguments = arguments := by
  fun_induction items arguments with
  | case1 => rfl
  | case2 a rest _ ih => rw [List.flatMap_cons, ih]; rfl
  | case3 a option h => rw [← flag_of_ofFlag? h]; rfl
  | case4 a option h value rest ih => rw [List.flatMap_cons, ih, ← flag_of_ofFlag? h]; rfl

theorem closed_of_mem_items (h : i ∈ items arguments) (hbare : ∀ option, i ≠ .bare option) :
    i.Closed := by
  fun_induction items arguments with
  | case1 => cases h
  | case2 a rest ha ih =>
    rcases List.mem_cons.mp h with heq | h
    · rw [heq]
      exact ha
    · exact ih h
  | case3 a option => exact absurd (List.mem_singleton.mp h) (hbare option)
  | case4 a option ha value rest ih =>
    rcases List.mem_cons.mp h with heq | h
    · rw [heq]
      trivial
    · exact ih h

theorem eq_nil_of_bare {option : NumberOption}
    (h : items arguments = before ++ .bare option :: after) : after = [] := by
  fun_induction items arguments generalizing before with
  | case1 => simp at h
  | case2 a rest _ ih =>
    cases before with
    | nil => cases h
    | cons j before => exact ih (List.cons.inj h).2
  | case3 a o =>
    cases before with
    | nil => exact (List.cons.inj h).2.symm
    | cons j before => simp at h
  | case4 a o _ value rest ih =>
    cases before with
    | nil => cases h
    | cons j before => exact ih (List.cons.inj h).2

/-- Closed items can be written one behind the other in any order. -/
theorem items_flatMap_arguments (h : ∀ i ∈ is, i.Closed) :
    items (is.flatMap Item.arguments) = is := by
  induction is with
  | nil => rfl
  | cons i is ih =>
    obtain ⟨hi, his⟩ := List.forall_mem_cons.mp h
    rw [List.flatMap_cons]
    cases i with
    | word a =>
      have ha : NumberOption.ofFlag? a = none := hi
      simp only [Item.arguments, List.singleton_append, items, ha, ih his]
    | number option value =>
      simp only [Item.arguments, List.cons_append, List.nil_append, items, ofFlag?_flag, ih his]
    | bare option => cases hi

theorem Asks.unique {t : Settings} (hs : Asks is s) (ht : Asks is t) : s = t := by
  have hset : ∀ {option default n m}, SetTo is option default n → SetTo is option default m →
      n = m := by
    intro option default n m hn hm
    unfold SetTo at hn hm
    cases hlast : (values option is).getLast? with
    | none =>
      rw [hlast] at hn hm
      exact hn.trans hm.symm
    | some value =>
      rw [hlast] at hn hm
      exact hn.unique hm
  have hback : s.back = t.back := Bool.eq_iff_iff.mpr (hs.back.trans ht.back.symm)
  have hverbose : s.verbose = t.verbose := Bool.eq_iff_iff.mpr (hs.verbose.trans ht.verbose.symm)
  have hsteps := hset hs.steps ht.steps
  have hwindow := hset hs.window ht.window
  have hpolicy := hs.policy.trans ht.policy.symm
  cases s
  cases t
  simp_all

/-! ## What reading does with an item -/

theorem ofString_of_mem_helpFlags (h : a ∈ helpFlags) : Argument.ofString a = .help := by
  simp only [helpFlags, List.mem_cons, List.not_mem_nil, or_false] at h
  rw [Argument.ofString, if_pos h]

theorem ofString_flag (option : NumberOption) :
    Argument.ofString option.flag = .number option := by
  cases option <;> rfl

theorem ofString_of_not_mem (hnumber : NumberOption.ofFlag? a = none) (hflag : a ∉ flags)
    (hhelp : a ∉ helpFlags) : Argument.ofString a = if isFile a then .file else .unknown := by
  simp only [helpFlags, List.mem_cons, List.not_mem_nil, or_false] at hhelp
  simp only [flags, List.mem_cons, List.not_mem_nil, or_false, not_or] at hflag
  obtain ⟨hevery, hback, hverbose⟩ := hflag
  have hsteps : a ≠ "--steps" := by
    rintro rfl
    cases hnumber
  have hwindow : a ≠ "--window" := by
    rintro rfl
    cases hnumber
  rw [Argument.ofString, if_neg hhelp, if_neg hsteps, if_neg hwindow, if_neg hevery, if_neg hback,
    if_neg (not_or.mpr hverbose)]
  by_cases hdash : a.toList.head? = some '-' <;> simp [isFile, hdash]

/-- The settings behind a word. -/
def Settings.withWord (s : Settings) (a : String) : Settings :=
  { s with
    policy := if a = "--every-crossing" then .everyCrossing else s.policy
    back := s.back || a = "--back"
    verbose := s.verbose || a = "-v" || a = "--verbose" }

theorem withWord_of_not_mem (h : a ∉ flags) : s.withWord a = s := by
  simp only [flags, List.mem_cons, List.not_mem_nil, or_false, not_or] at h
  simp [Settings.withWord, h]

theorem asks_nil : Asks [] {} :=
  ⟨rfl, rfl, rfl, by simp, by simp⟩

theorem Asks.word (h : Asks before s) (a : String) :
    Asks (before ++ [.word a]) (s.withWord a) := by
  have hvalues : ∀ option, values option (before ++ [.word a]) = values option before := by
    intro option
    rw [values_append]
    exact List.append_nil _
  obtain ⟨hsteps, hwindow, hpolicy, hback, hverbose⟩ := h
  refine ⟨?_, ?_, ?_, ?_, ?_⟩
  · rwa [SetTo, hvalues]
  · rwa [SetTo, hvalues]
  · by_cases ha : a = "--every-crossing"
    · simp [Settings.withWord, ha]
    · simp [Settings.withWord, hpolicy, ha, Ne.symm ha]
  · simp [Settings.withWord, hback, eq_comm (a := a)]
  · simp only [Settings.withWord, Bool.or_eq_true, hverbose, decide_eq_true_eq, List.mem_append,
      List.mem_singleton, Item.word.injEq, eq_comm (a := a)]
    rw [or_assoc, or_or_or_comm]

theorem Asks.number (h : Asks before s) (option : NumberOption) {value : String} {n : Nat}
    (hvalue : Writes value n) : Asks (before ++ [.number option value]) (s.set option n) := by
  have hvalues : ∀ o, values o (before ++ [.number option value]) =
      values o before ++ if option = o then [value] else [] := by
    intro o
    rw [values_append]
    by_cases ho : option = o <;> simp [values, Item.value?, ho]
  obtain ⟨hsteps, hwindow, hpolicy, hback, hverbose⟩ := h
  cases option with
  | steps =>
    refine ⟨?_, ?_, by simpa [Settings.set], by simpa [Settings.set], by simpa [Settings.set]⟩
    · rw [SetTo, hvalues, if_pos rfl, List.getLast?_concat]
      exact hvalue
    · rw [SetTo, hvalues, if_neg nofun, List.append_nil]
      exact hwindow
  | window =>
    refine ⟨?_, ?_, by simpa [Settings.set], by simpa [Settings.set], by simpa [Settings.set]⟩
    · rw [SetTo, hvalues, if_neg nofun, List.append_nil]
      exact hsteps
    · rw [SetTo, hvalues, if_pos rfl, List.getLast?_concat]
      exact hvalue

/-- Reading goes on behind an item that is in order. -/
theorem readFrom_item (hs : Asks before s) (hclosed : i.Closed) (hhelp : ¬ i.CallsHelp)
    (hsound : ∀ e, ¬ Offends before i e) :
    ∃ t, Asks (before ++ [i]) t ∧ ∀ rest,
      readFrom (files before).head? s (i.arguments ++ rest) =
        readFrom (files (before ++ [i])).head? t rest := by
  cases i with
  | bare option => cases hclosed
  | number option value =>
    obtain ⟨n, hn⟩ : ∃ n, Writes value n := by
      by_contra hnone
      exact hsound _ (.invalid (not_exists.mp hnone))
    refine ⟨s.set option n, hs.number option hn, fun rest => ?_⟩
    have hfiles : files (before ++ [.number option value]) = files before := by
      rw [files_append]
      exact List.append_nil _
    rw [hfiles, Item.arguments, List.cons_append, List.cons_append, readFrom.eq_def]
    simp only [ofString_flag, readNumber?_eq_some_iff.mpr hn, List.nil_append]
  | word a =>
    have hcall : a ∉ helpFlags := fun ha => hhelp ⟨a, ha, rfl⟩
    refine ⟨s.withWord a, hs.word a, fun rest => ?_⟩
    by_cases hflag : a ∈ flags
    · have hfiles : files (before ++ [.word a]) = files before := by
        have hnofile : ∀ b ∈ flags, isFile b = false := by decide
        rw [files_append]
        simp [files, Item.file?, hnofile a hflag]
      rw [hfiles]
      simp only [flags, List.mem_cons, List.not_mem_nil, or_false] at hflag
      rw [Item.arguments, List.singleton_append, readFrom.eq_def]
      rcases hflag with rfl | rfl | rfl | rfl <;> simp [Argument.ofString, Settings.withWord]
    · cases hfile : isFile a with
      | false => exact absurd (.unknown hfile hflag hcall) (hsound _)
      | true =>
        have hfirst : files before = [] := by
          by_contra hne
          exact hsound _ (.second hfile hne)
        have hkind := ofString_of_not_mem hclosed hflag hcall
        rw [hfile, if_pos rfl] at hkind
        have hfiles : files (before ++ [.word a]) = [a] := by
          rw [files_append, hfirst]
          simp [files, Item.file?, hfile]
        rw [hfirst, hfiles, withWord_of_not_mem hflag, Item.arguments, List.singleton_append,
          readFrom.eq_def]
        simp only [hkind, List.head?_nil, List.head?_cons]

/-! ## Reading to the end, or to where it stops -/

theorem Sound.init (h : Sound (before ++ after)) : Sound before := by
  intro b j r heq
  exact h b j (r ++ after) (by rw [heq, List.append_assoc, List.cons_append])

theorem Sound.not_offends (h : Sound (before ++ i :: after)) (e : ArgumentError) :
    ¬ Offends before i e := h before i after rfl e

theorem sound_nil : Sound [] := by
  intro before i after h
  simp at h

theorem Sound.snoc (h : Sound before) (hi : ∀ e, ¬ Offends before i e) :
    Sound (before ++ [i]) := by
  intro b j r heq
  rcases List.eq_nil_or_concat r with hr | ⟨r, k, hr⟩
  · rw [hr] at heq
    obtain ⟨hb, hj⟩ := List.append_inj' heq rfl
    rw [← hb, ← (List.cons.inj hj).1]
    exact hi
  · rw [hr, List.concat_eq_append, ← List.cons_append, ← List.append_assoc] at heq
    exact h b j r (List.append_inj' heq rfl).1

theorem Sound.ne_bare (h : Sound is) (hi : i ∈ is) (option : NumberOption) : i ≠ .bare option := by
  intro heq
  obtain ⟨before, after, his⟩ := List.append_of_mem hi
  rw [his, heq] at h
  exact h.not_offends _ .missing

/-- Reading gets past items that are in order, and has then the settings that they ask for. -/
theorem read_sound (hclosed : ∀ i ∈ is, i.Closed) (hhelp : ∀ i ∈ is, ¬ i.CallsHelp)
    (hsound : Sound is) : ∃ s, Asks is s ∧ ∀ rest,
      readArguments (is.flatMap Item.arguments ++ rest) = readFrom (files is).head? s rest := by
  induction is using List.reverseRecOn with
  | nil => exact ⟨{}, asks_nil, fun rest => rfl⟩
  | append_singleton is i ih =>
    simp only [List.forall_mem_append, List.forall_mem_singleton] at hclosed hhelp
    obtain ⟨s, hs, hread⟩ := ih hclosed.1 hhelp.1 hsound.init
    obtain ⟨t, ht, hitem⟩ := readFrom_item hs hclosed.2 hhelp.2 hsound.not_offends
    refine ⟨t, ht, fun rest => ?_⟩
    rw [List.flatMap_append, List.append_assoc, hread, List.flatMap_singleton, hitem]

/-- All items are in order and none calls for help, or there is a first one of which this is not
so. -/
theorem exists_stop (is : List Item) :
    (Sound is ∧ ∀ i ∈ is, ¬ i.CallsHelp) ∨
      ∃ before i after, is = before ++ i :: after ∧ Sound before ∧
        (∀ j ∈ before, ¬ j.CallsHelp) ∧ (i.CallsHelp ∨ ∃ e, Offends before i e) := by
  induction is using List.reverseRecOn with
  | nil => exact .inl ⟨sound_nil, by simp⟩
  | append_singleton is i ih =>
    rcases ih with ⟨hsound, hhelp⟩ | ⟨before, j, after, heq, hstop⟩
    · by_cases hi : i.CallsHelp ∨ ∃ e, Offends is i e
      · exact .inr ⟨is, i, [], rfl, hsound, hhelp, hi⟩
      · obtain ⟨hcall, hoffends⟩ := not_or.mp hi
        refine .inl ⟨hsound.snoc (not_exists.mp hoffends), ?_⟩
        rw [List.forall_mem_append]
        exact ⟨hhelp, by simpa using hcall⟩
    · exact .inr ⟨before, j, after ++ [i], by rw [heq]; simp, hstop⟩

section
variable (h : items arguments = before ++ i :: after) (hsound : Sound before)
  (hhelp : ∀ j ∈ before, ¬ j.CallsHelp)

include h hsound hhelp

/-- Reading gets to the first item that is not in order or calls for help. -/
theorem readArguments_stop : ∃ s, readArguments arguments =
    readFrom (files before).head? s (i.arguments ++ after.flatMap Item.arguments) := by
  have hclosed : ∀ j ∈ before, j.Closed := fun j hj =>
    closed_of_mem_items (h ▸ List.mem_append_left _ hj) (hsound.ne_bare hj)
  obtain ⟨s, -, hread⟩ := read_sound hclosed hhelp hsound
  refine ⟨s, ?_⟩
  rw [← hread, ← List.flatMap_cons, ← List.flatMap_append, ← h, flatMap_items]

theorem readArguments_of_callsHelp (hi : i.CallsHelp) : readArguments arguments = .ok .help := by
  obtain ⟨s, hread⟩ := readArguments_stop h hsound hhelp
  obtain ⟨a, ha, heq⟩ := hi
  rw [hread, heq, Item.arguments, List.singleton_append, readFrom.eq_def]
  simp only [ofString_of_mem_helpFlags ha]

theorem readArguments_of_offends (hi : Offends before i e) :
    readArguments arguments = .error e := by
  obtain ⟨s, hread⟩ := readArguments_stop h hsound hhelp
  have hmem : i ∈ items arguments := h ▸ List.mem_append_right _ (List.mem_cons_self ..)
  rw [hread, readFrom.eq_def]
  cases hi with
  | @unknown a hfile hflag hcall =>
    have hkind := ofString_of_not_mem (closed_of_mem_items hmem nofun) hflag hcall
    simp only [hfile, Bool.false_eq_true, if_false] at hkind
    simp only [Item.arguments, List.singleton_append, hkind]
  | @second a hfile hbefore =>
    have hflag : a ∉ flags := fun ha => by
      rw [(by decide : ∀ b ∈ flags, isFile b = false) a ha] at hfile
      cases hfile
    have hcall : a ∉ helpFlags := fun ha => by
      rw [(by decide : ∀ b ∈ helpFlags, isFile b = false) a ha] at hfile
      cases hfile
    have hkind := ofString_of_not_mem (closed_of_mem_items hmem nofun) hflag hcall
    obtain ⟨first, others, hfirst⟩ := List.exists_cons_of_ne_nil hbefore
    simp only [hfile, if_true] at hkind
    simp only [Item.arguments, List.singleton_append, hkind, hfirst, List.head?_cons]
  | @missing option =>
    simp only [Item.arguments, List.singleton_append, eq_nil_of_bare h, List.flatMap_nil,
      ofString_flag]
  | @invalid option value hvalue =>
    have hnone : readNumber? value = none := by
      rw [Option.eq_none_iff_forall_ne_some]
      exact fun n hn => hvalue n (readNumber?_eq_some_iff.mp hn)
    simp only [Item.arguments, List.cons_append, List.nil_append, ofString_flag, hnone]

end

/-! ## Command lines that are in order -/

/-- The items of a command line that says what to play: one file, known flags, and numbers. -/
structure Complete (is : List Item) (file : String) : Prop where
  help : ∀ i ∈ is, ¬ i.CallsHelp
  file : files is = [file]
  word : ∀ a, .word a ∈ is → isFile a = true ∨ a ∈ flags
  bare : ∀ option, .bare option ∉ is
  value : ∀ option value, .number option value ∈ is → ∃ n, Writes value n

variable {file : String}

theorem Complete.sound (h : Complete is file) : Sound is := by
  intro before i after heq e he
  have hmem : i ∈ is := heq ▸ List.mem_append_right _ (List.mem_cons_self ..)
  cases he with
  | @unknown a hfile hflag hhelp =>
    rcases h.word a hmem with hword | hword
    · rw [hfile] at hword
      cases hword
    · exact hflag hword
  | @second a hfile hbefore =>
    -- two files would be named
    have hfiles := congrArg List.length h.file
    have hpos := List.length_pos_iff.mpr hbefore
    rw [heq, files_append, files_word hfile] at hfiles
    simp only [List.length_append, List.length_cons, List.length_nil] at hfiles
    omega
  | @missing option => exact h.bare option hmem
  | @invalid option value hvalue =>
    obtain ⟨n, hn⟩ := h.value option value hmem
    exact hvalue n hn

theorem Sound.length_files_le (h : Sound is) : (files is).length ≤ 1 := by
  induction is using List.reverseRecOn with
  | nil => exact Nat.zero_le 1
  | append_singleton is i ih =>
    rw [files_append]
    by_cases hi : files [i] = []
    · rw [hi, List.append_nil]
      exact ih h.init
    · obtain ⟨a, ha, hfile⟩ := exists_word_of_files hi
      rw [ha] at h ⊢
      have hfirst : files is = [] := by
        by_contra hne
        exact h.not_offends _ (.second hfile hne)
      rw [hfirst, files_word hfile]
      exact Nat.le_refl 1

theorem Sound.complete (h : Sound is) (hhelp : ∀ i ∈ is, ¬ i.CallsHelp)
    (hfile : file ∈ files is) : Complete is file := by
  have hnot : ∀ i ∈ is, ∀ e, ∃ before, ¬ Offends before i e := by
    intro i hi e
    obtain ⟨before, after, his⟩ := List.append_of_mem hi
    rw [his] at h
    exact ⟨before, h.not_offends e⟩
  refine ⟨hhelp, ?_, fun a ha => ?_, fun option ho => ?_, fun option value hv => ?_⟩
  · have hone := h.length_files_le
    obtain ⟨first, hfirst⟩ := List.length_eq_one_iff.mp
      (Nat.le_antisymm hone (List.length_pos_of_mem hfile))
    rw [hfirst] at hfile ⊢
    rw [List.mem_singleton.mp hfile]
  · obtain ⟨before, hbefore⟩ := hnot _ ha (.unknownOption a)
    by_contra hword
    obtain ⟨hnofile, hflag⟩ := not_or.mp hword
    exact hbefore (.unknown (Bool.eq_false_iff.mpr hnofile) hflag
      fun hcall => hhelp _ ha ⟨a, hcall, rfl⟩)
  · exact h.ne_bare ho option rfl
  · obtain ⟨before, hbefore⟩ := hnot _ hv (.invalidValue option value)
    by_contra hnone
    exact hbefore (.invalid (not_exists.mp hnone))

theorem Complete.perm (h : Complete is file) {moved : List Item} (hperm : moved.Perm is) :
    Complete moved file := by
  obtain ⟨hhelp, hfile, hword, hbare, hvalue⟩ := h
  refine ⟨fun i hi => hhelp i (hperm.mem_iff.mp hi), ?_, fun a ha => hword a (hperm.mem_iff.mp ha),
    fun option ho => hbare option (hperm.mem_iff.mp ho),
    fun option value hv => hvalue option value (hperm.mem_iff.mp hv)⟩
  have hfiles : (files moved).Perm (files is) := hperm.filterMap Item.file?
  rw [hfile] at hfiles
  exact List.perm_singleton.mp hfiles

/-- Moving items changes no setting if the values of each option keep their order. -/
theorem Asks.perm (h : Asks is s) {moved : List Item} (hperm : moved.Perm is)
    (hvalues : ∀ option, values option moved = values option is) : Asks moved s := by
  obtain ⟨hsteps, hwindow, hpolicy, hback, hverbose⟩ := h
  refine ⟨?_, ?_, ?_, ?_, ?_⟩
  · rwa [SetTo, hvalues]
  · rwa [SetTo, hvalues]
  · simpa only [hperm.mem_iff] using hpolicy
  · simpa only [hperm.mem_iff] using hback
  · simpa only [hperm.mem_iff] using hverbose

theorem Sound.closed (h : Sound (items arguments)) : ∀ i ∈ items arguments, i.Closed := fun _ hi =>
  closed_of_mem_items hi (h.ne_bare hi)

theorem readArguments_of_sound (hsound : Sound (items arguments))
    (hhelp : ∀ i ∈ items arguments, ¬ i.CallsHelp) :
    ∃ s, Asks (items arguments) s ∧
      readArguments arguments = readFrom (files (items arguments)).head? s [] := by
  obtain ⟨s, hs, hread⟩ := read_sound hsound.closed hhelp hsound
  refine ⟨s, hs, ?_⟩
  rw [← hread, List.append_nil, flatMap_items]

/-- Reading stops at an item that calls for help or offends, or comes to the end. -/
theorem readArguments_cases (arguments : List String) :
    (∃ before i after, items arguments = before ++ i :: after ∧ Sound before ∧
        (∀ j ∈ before, ¬ j.CallsHelp) ∧
        ((i.CallsHelp ∧ readArguments arguments = .ok .help) ∨
          ∃ e, Offends before i e ∧ readArguments arguments = .error e)) ∨
      (Sound (items arguments) ∧ (∀ i ∈ items arguments, ¬ i.CallsHelp) ∧
        ((files (items arguments) = [] ∧ readArguments arguments = .error .missingFile) ∨
          ∃ file ∈ files (items arguments), ∃ s, Asks (items arguments) s ∧
            readArguments arguments = .ok (.play file s))) := by
  rcases exists_stop (items arguments) with ⟨hsound, hhelp⟩ | ⟨before, i, after, heq, hstop⟩
  · right
    obtain ⟨s, hs, hend⟩ := readArguments_of_sound hsound hhelp
    refine ⟨hsound, hhelp, ?_⟩
    cases hfile : (files (items arguments)).head? with
    | none =>
      rw [hfile] at hend
      exact .inl ⟨List.head?_eq_none_iff.mp hfile, hend⟩
    | some file =>
      rw [hfile] at hend
      exact .inr ⟨file, List.mem_of_mem_head? hfile, s, hs, hend⟩
  · obtain ⟨hsound, hhelp, hi | ⟨e, he⟩⟩ := hstop
    · exact .inl ⟨before, i, after, heq, hsound, hhelp,
        .inl ⟨hi, readArguments_of_callsHelp heq hsound hhelp hi⟩⟩
    · exact .inl ⟨before, i, after, heq, hsound, hhelp,
        .inr ⟨e, he, readArguments_of_offends heq hsound hhelp he⟩⟩

/-! ## The three kinds of answers -/

theorem readArguments_eq_help_iff :
    readArguments arguments = .ok .help ↔
      ∃ before i after, items arguments = before ++ i :: after ∧ i.CallsHelp ∧ Sound before := by
  constructor
  · intro h
    rcases readArguments_cases arguments with
      ⟨before, i, after, heq, hsound, -, ⟨hi, -⟩ | ⟨e, -, hread⟩⟩ |
        ⟨-, -, ⟨-, hread⟩ | ⟨file, -, s, -, hread⟩⟩
    · exact ⟨before, i, after, heq, hi, hsound⟩
    all_goals
      rw [hread] at h
      cases h
  · rintro ⟨before, i, after, heq, hi, hsound⟩
    rcases exists_stop before with ⟨-, hhelp⟩ | ⟨b, j, r, hb, hfirst, hhelp, hj | ⟨e, he⟩⟩
    · exact readArguments_of_callsHelp heq hsound hhelp hi
    · -- help was called for before
      rw [hb, List.append_assoc, List.cons_append] at heq
      exact readArguments_of_callsHelp heq hfirst hhelp hj
    · exact absurd he (hsound b j r hb e)

theorem readArguments_eq_play_iff :
    readArguments arguments = .ok (.play file s) ↔
      Complete (items arguments) file ∧ Asks (items arguments) s := by
  constructor
  · intro h
    rcases readArguments_cases arguments with
      ⟨-, -, -, -, -, -, ⟨-, hread⟩ | ⟨e, -, hread⟩⟩ |
        ⟨hsound, hhelp, ⟨-, hread⟩ | ⟨f, hfile, t, ht, hread⟩⟩
    all_goals
      rw [hread] at h
      cases h
    exact ⟨hsound.complete hhelp hfile, ht⟩
  · rintro ⟨hcomplete, hs⟩
    obtain ⟨t, ht, hread⟩ := readArguments_of_sound hcomplete.sound hcomplete.help
    rw [hread, hcomplete.file, hs.unique ht]
    rfl

theorem readArguments_eq_error_iff :
    readArguments arguments = .error e ↔
      (∃ before i after, items arguments = before ++ i :: after ∧ Offends before i e ∧
        Sound before ∧ ∀ j ∈ before, ¬ j.CallsHelp) ∨
      (e = .missingFile ∧ files (items arguments) = [] ∧ Sound (items arguments) ∧
        ∀ j ∈ items arguments, ¬ j.CallsHelp) := by
  constructor
  · intro h
    rcases readArguments_cases arguments with
      ⟨before, i, after, heq, hsound, hhelp, ⟨-, hread⟩ | ⟨d, hd, hread⟩⟩ |
        ⟨hsound, hhelp, ⟨hfiles, hread⟩ | ⟨f, -, t, -, hread⟩⟩
    all_goals
      rw [hread] at h
      cases h
    · exact .inl ⟨before, i, after, heq, hd, hsound, hhelp⟩
    · exact .inr ⟨rfl, hfiles, hsound, hhelp⟩
  · rintro (⟨before, i, after, heq, hi, hsound, hhelp⟩ | ⟨rfl, hfiles, hsound, hhelp⟩)
    · exact readArguments_of_offends heq hsound hhelp hi
    · obtain ⟨s, -, hread⟩ := readArguments_of_sound hsound hhelp
      rw [hread, hfiles]
      rfl

/-- Moving the items of a complete command line changes nothing, if the values of each option keep
their order. -/
theorem readArguments_perm (h : readArguments arguments = .ok (.play file s)) {moved : List Item}
    (hperm : moved.Perm (items arguments))
    (hvalues : ∀ option, values option moved = values option (items arguments)) :
    readArguments (moved.flatMap Item.arguments) = .ok (.play file s) := by
  obtain ⟨hcomplete, hs⟩ := readArguments_eq_play_iff.mp h
  have hclosed : ∀ i ∈ moved, i.Closed := fun i hi =>
    hcomplete.sound.closed i (hperm.mem_iff.mp hi)
  rw [readArguments_eq_play_iff, items_flatMap_arguments hclosed]
  exact ⟨hcomplete.perm hperm, hs.perm hperm hvalues⟩

theorem SetTo.bounds {option : NumberOption} {default n : Nat} (h : SetTo is option default n)
    (hdefault : 1 ≤ default ∧ default < 2 ^ 32) : 1 ≤ n ∧ n < 2 ^ 32 := by
  unfold SetTo at h
  split at h
  · rwa [h]
  · obtain ⟨digits, -, -, -, -, hbounds⟩ := h
    exact hbounds

/-! ## Playing -/

theorem code_play_eq_zero_iff {content : FileContent} (hwindow : 1 ≤ s.window) :
    (play file s content).code = 0 ↔ ∃ read, readChapter file content = .ok read := by
  have hvalid : ({ window := s.window, policy := s.policy } : Options).validate =
      .ok { window := s.window, policy := s.policy } := by
    rw [Options.validate, if_neg (Nat.one_le_iff_ne_zero.mp hwindow)]
  unfold play Session.new Chapter.load
  rw [hvalid]
  unfold Session.loadFile
  cases hread : readChapter file content with
  | error failure => simp [bind, Except.bind, Functor.map, Except.map, failed]
  | ok read =>
    simp [bind, Except.bind, Functor.map, Except.map, pure, Except.pure, Chapter.loadText,
      Chapter.ofSource, Chapter.ofText, hvalid]

theorem mem_samples {p : Float} (h : p ∈ samples s) :
    ∃ step ≤ s.steps, p = Progress.fraction step s.steps := by
  unfold samples at h
  obtain ⟨step, hstep, hp⟩ := List.mem_map.mp h
  refine ⟨step, ?_, hp.symm⟩
  rcases List.mem_append.mp hstep with hforward | hbackward
  · exact Nat.lt_succ_iff.mp (List.mem_range.mp hforward)
  · split at hbackward
    · exact Nat.le_of_lt (List.mem_range.mp (List.mem_reverse.mp hbackward))
    · cases hbackward

/-- **The grammar of a command line.** Its items are all that is written. Help is shown just if an
item calls for it before anything is wrong. A chapter is played just if the items name one file, and
are else known flags and options with numbers; the settings are then those that the items ask for,
however they are moved, and no step is divided by nothing. All else is an error: that of the first
item with which something is wrong, or that no file is named. -/
theorem readArguments_grammar (arguments : List String) :
    (items arguments).flatMap Item.arguments = arguments ∧
      (readArguments arguments = .ok .help ↔
        ∃ before i after, items arguments = before ++ i :: after ∧ i.CallsHelp ∧ Sound before) ∧
      (∀ file s, readArguments arguments = .ok (.play file s) ↔
        Complete (items arguments) file ∧ Asks (items arguments) s) ∧
      (∀ e, readArguments arguments = .error e ↔
        (∃ before i after, items arguments = before ++ i :: after ∧ Offends before i e ∧
          Sound before ∧ ∀ j ∈ before, ¬ j.CallsHelp) ∨
        (e = .missingFile ∧ files (items arguments) = [] ∧ Sound (items arguments) ∧
          ∀ j ∈ items arguments, ¬ j.CallsHelp)) ∧
      ∀ file s, readArguments arguments = .ok (.play file s) →
        (1 ≤ s.steps ∧ s.steps < 2 ^ 32 ∧ 1 ≤ s.window ∧ s.window < 2 ^ 32) ∧
        (∀ p ∈ samples s, ∃ step ≤ s.steps, p = Progress.fraction step s.steps) ∧
        (∀ readFile : String → FileContent, (run arguments readFile).code = 0 ↔
          ∃ read, readChapter file (readFile file) = .ok read) ∧
        ∀ moved : List Item, moved.Perm (items arguments) →
          (∀ option, values option moved = values option (items arguments)) →
          readArguments (moved.flatMap Item.arguments) = .ok (.play file s) := by
  refine ⟨flatMap_items arguments, readArguments_eq_help_iff,
    fun file s => readArguments_eq_play_iff, fun e => readArguments_eq_error_iff,
    fun file s h => ?_⟩
  obtain ⟨-, hs⟩ := readArguments_eq_play_iff.mp h
  have hsteps := hs.steps.bounds (by decide)
  have hwindow := hs.window.bounds (by decide)
  refine ⟨⟨hsteps.1, hsteps.2, hwindow.1, hwindow.2⟩, fun p => mem_samples, fun readFile => ?_,
    fun moved => readArguments_perm h⟩
  rw [run, h]
  exact code_play_eq_zero_iff hwindow.1

/-- A command line whose items are moved: the second number for the steps stays behind the first. -/
theorem readArguments_grammar_moved :
    readArguments ["--steps", "3", "a", "--back", "--steps", "+07", "-v"] =
        .ok (.play "a" ⟨7, 5, .once, true, true⟩) ∧
      readArguments ["-v", "--steps", "3", "--steps", "+07", "--back", "a"] =
        .ok (.play "a" ⟨7, 5, .once, true, true⟩) ∧
      ((run ["--steps", "3", "a", "--back", "--steps", "+07", "-v"] fun _ =>
          .error .notFound).code = 0 ↔ ∃ read, readChapter "a" (.error .notFound) = .ok read) := by
  have hplay : readArguments ["--steps", "3", "a", "--back", "--steps", "+07", "-v"] =
      .ok (.play "a" ⟨7, 5, .once, true, true⟩) := by decide +kernel
  obtain ⟨-, -, hcode, hmoved⟩ := (readArguments_grammar
    ["--steps", "3", "a", "--back", "--steps", "+07", "-v"]).2.2.2.2 "a" _ hplay
  refine ⟨hplay, ?_, hcode _⟩
  refine hmoved [.word "-v", .number .steps "3", .number .steps "+07", .word "--back", .word "a"]
    (by decide +kernel) fun option => ?_
  cases option <;> decide +kernel

/-- What stands behind an option that takes a number is its value, whatever it looks like. -/
example : readArguments ["--steps", "--help", "a"] = .error (.invalidValue .steps "--help") := by
  decide +kernel

end CuedProse.CommandLine
