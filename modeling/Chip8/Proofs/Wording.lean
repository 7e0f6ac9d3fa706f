import Chip8.Program
import Chip8.Proofs.Numeral
import Mathlib.Algebra.Ring.Nat
import Mathlib.Data.List.Infix

/-!
# Wordings of a command line

The same can be told on the command line in many ways. Options and flags are `Part`s: a
number is in the argument that names its option or in the next one, and flags are letters,
several of them on one dash or each on its own, or words. Parts stand in any order around
the name of the file.

Every wording is read as what it means (`parse_arguments`). A number in an argument of its
own is judged only when the next argument has been seen, so while a wording is read its
draft is where it should be up to that one number (`Draft.Nears`). What the parts have
made of it in the end is told by the last part that gives an option its number
(`Draft.value_foldl`), and by how many flags there are (`Draft.verbosity_foldl`).
-/

namespace Chip8.CommandLine

/-! ## Parts -/

def Setting.name : Setting → String
  | speed => "speed"
  | scale => "scale"
  | seed => "seed"

/-- The number that an option has where none is given. -/
def Setting.default? : Setting → Option Nat
  | speed => some 100
  | scale => some 10
  | seed => none

/-- Flags, or an option with a number in its range, in one of their wordings. -/
inductive Part where
  /-- The number is in the argument that names the option, or in the next one. -/
  | setting (setting : Setting) (m : Numeral)
      (fits : setting.least ≤ m.value ∧ m.value ≤ setting.most) (joined : Bool)
  /-- A letter and `more` of them on one dash. -/
  | bundle (more : Nat)
  | word

namespace Part

def arguments : Part → List String
  | setting s m _ true => ["--" ++ s.name ++ "=" ++ String.ofList m.text]
  | setting s m _ false => ["--" ++ s.name, String.ofList m.text]
  | bundle more => ["-" ++ String.ofList (List.replicate (more + 1) 'v')]
  | word => ["--verbose"]

/-- The number that a part gives to an option, if it gives one. -/
def value? (s : Setting) : Part → Option Nat
  | setting s' m _ _ => if s' = s then some m.value else none
  | _ => none

/-- How often a part asks for more log output. -/
def flags : Part → Nat
  | setting .. => 0
  | bundle more => more + 1
  | word => 1

end Part

/-- The number that some parts give to an option last, if they give it one. -/
def lastValue? (s : Setting) (parts : List Part) : Option Nat :=
  (parts.filterMap (Part.value? s)).getLast?

def flagCount (parts : List Part) : Nat := (parts.map Part.flags).sum

/-- Some arguments give a number to an option: a part that does stands among them. -/
def Gives (arguments : List String) (s : Setting) (n : Nat) : Prop :=
  ∃ part : Part, part.value? s = some n ∧ part.arguments <:+: arguments

/-- The number of an option, where settings and a seed have been chosen. -/
def chosen (settings : Host.Settings) (seed? : Option UInt64) : Setting → Option Nat
  | .speed => some settings.speed.toNat
  | .scale => some settings.scale.toNat
  | .seed => seed?.map UInt64.toNat

def Options.value (options : Options) : Setting → Option Nat :=
  chosen options.settings options.seed?

theorem lastValue?_append (s : Setting) (before after : List Part) :
    lastValue? s (before ++ after) = (lastValue? s after).or (lastValue? s before) := by
  rw [lastValue?, List.filterMap_append, List.getLast?_append]
  rfl

theorem flagCount_append (before after : List Part) :
    flagCount (before ++ after) = flagCount before + flagCount after := by
  rw [flagCount, List.map_append, List.sum_append]
  rfl

/-! ## Forms of arguments -/

theorem Setting.ofName?_eq_some_iff {name : List Char} {s : Setting} :
    ofName? name = some s ↔ name = s.name.toList := by
  constructor
  · intro h
    unfold ofName? at h
    split at h <;> cases h <;> rfl
  · rintro rfl
    cases s <;> rfl

namespace Argument

/-- A text is the part before the first `=` and, if there is one, the part after it. -/
theorem splitValue_cases (cs : List Char) :
    (splitValue cs).2 = none ∧ cs = (splitValue cs).1
      ∨ ∃ rest, (splitValue cs).2 = some rest ∧ cs = (splitValue cs).1 ++ '=' :: rest := by
  fun_induction splitValue cs with
  | case1 => exact .inl ⟨rfl, rfl⟩
  | case2 rest => exact .inr ⟨rest, rfl, rfl⟩
  | case3 c rest _ ih =>
    rcases ih with ⟨hnone, hcs⟩ | ⟨value, hsome, hcs⟩
    · exact .inl ⟨hnone, congrArg (c :: ·) hcs⟩
    · exact .inr ⟨value, hsome, congrArg (c :: ·) hcs⟩

/-- What does not begin with a dash is no option and no flag. -/
theorem ofChars_of_head {cs : List Char} (h : cs.head? ≠ some '-') :
    ofChars cs = plain cs := by
  unfold ofChars
  split <;> simp_all

theorem ofChars_joined (s : Setting) (cs : List Char) :
    ofChars ("--" ++ s.name ++ "=" ++ String.ofList cs).toList
      = long s.name.toList (some cs) := by
  have hchars : ("--" ++ s.name ++ "=" ++ String.ofList cs).toList
      = '-' :: '-' :: (s.name.toList ++ '=' :: cs) := by simp
  rw [hchars]
  cases s <;> rfl

theorem ofChars_apart (s : Setting) :
    ofChars ("--" ++ s.name).toList = long s.name.toList none := by
  cases s <;> decide

theorem ofChars_bundle (more : Nat) :
    ofChars ("-" ++ String.ofList (List.replicate (more + 1) 'v')).toList
      = short (List.replicate (more + 1) 'v') := by
  have hchars : ("-" ++ String.ofList (List.replicate (more + 1) 'v')).toList
      = '-' :: 'v' :: List.replicate more 'v' := by simp [List.replicate_succ]
  rw [hchars]
  rfl

end Argument

/-! ## Drafts -/

namespace Draft

/-- The number of an option, as far as it has been read. -/
def value (d : Draft) : Setting → Option Nat := chosen d.settings d.seed?

/-- What a part makes of a draft that has nothing left to settle. -/
def enter (d : Draft) : Part → Draft
  | .setting s m _ _ => d.put s m.value
  | part => { d with verbosity := d.verbosity + UInt8.ofNat part.flags }

/-- Nothing is pending, no option lacks its value, and options still count as such. -/
structure Clear (d : Draft) : Prop where
  pending : d.pending = .nothing
  valueless : d.valueless = []
  separated : d.separated = false

/-- At most the judging of a number in its range separates a draft from one that is `done`. -/
structure Nears (d done : Draft) : Prop where
  settles : d.settle = .ok done
  clear : done.Clear
  separated : d.separated = false
  waits : ∀ s, d.pending ≠ .option s

variable {d done : Draft}

/-- Before anything has been read, options have the numbers they have where none is given. -/
theorem value_start (s : Setting) : ({} : Draft).value s = s.default? := by
  cases s <;> rfl

/-- A number in the range of its option fits into its word, so it is not changed when it
is put there. No other option is. -/
theorem value_put (d : Draft) {s : Setting} {n : Nat} (h : n ≤ s.most) (s' : Setting) :
    (d.put s n).value s' = if s = s' then some n else d.value s' := by
  cases s with
  | speed =>
    cases s' with
    | speed => exact congrArg some (UInt32.toNat_ofNat_of_lt' (Nat.lt_succ_of_le h))
    | _ => rfl
  | scale =>
    cases s' with
    | scale => exact congrArg some (UInt32.toNat_ofNat_of_lt' (Nat.lt_succ_of_le h))
    | _ => rfl
  | seed =>
    cases s' with
    | seed => exact congrArg some (UInt64.toNat_ofNat_of_lt' (Nat.lt_succ_of_le h))
    | _ => rfl

theorem filename?_put (d : Draft) (s : Setting) (n : Nat) :
    (d.put s n).filename? = d.filename? := by
  cases s <;> rfl

theorem pending_put (d : Draft) (s : Setting) (n : Nat) :
    (d.put s n).pending = d.pending := by
  cases s <;> rfl

/-- A value that is taken is a number in the range of its option. -/
theorem assign_eq_ok_iff {d d' : Draft} {s : Setting} {cs : List Char} :
    d.assign s cs = .ok d' ↔ ∃ n, s.value? cs = some n
      ∧ d' = { d with valueless := d.valueless.erase s }.put s n := by
  unfold assign
  cases s.value? cs with
  | none => simp
  | some n => simp [eq_comm]

/-- What settling does: it judges the value that is pending, or there is none. -/
theorem settle_cases {d d' : Draft} (h : d.settle = .ok d') :
    (∃ s cs n, d.pending = .value s cs ∧ s.value? cs = some n
        ∧ d' = { d with pending := .nothing, valueless := d.valueless.erase s }.put s n)
      ∨ (∀ s cs, d.pending ≠ .value s cs) ∧ d' = { d with pending := .nothing } := by
  unfold settle at h
  split at h
  · rename_i s cs hpending
    obtain ⟨n, hvalue, hd'⟩ := assign_eq_ok_iff.mp h
    exact .inl ⟨s, cs, n, hpending, hvalue, hd'⟩
  · rename_i hnone
    cases h
    exact .inr ⟨hnone, rfl⟩

theorem Clear.put (h : d.Clear) (s : Setting) (n : Nat) : (d.put s n).Clear := by
  cases s <;> exact ⟨h.pending, h.valueless, h.separated⟩

theorem Clear.enter (h : d.Clear) (part : Part) : (d.enter part).Clear := by
  cases part with
  | setting s m fits joined => exact h.put s m.value
  | _ => exact ⟨h.pending, h.valueless, h.separated⟩

theorem Clear.nears (h : d.Clear) : d.Nears d where
  settles := by
    rw [settle, h.pending]
    show Except.ok { d with pending := .nothing } = _
    rw [← h.pending]
  clear := h
  separated := h.separated
  waits s := by
    rw [h.pending]
    exact nofun

theorem Clear.withVerbosity (h : d.Clear) (n : UInt8) :
    ({ d with verbosity := n } : Draft).Clear :=
  ⟨h.pending, h.valueless, h.separated⟩

/-! ## One argument -/

theorem take_of_setting (h : d.separated = false) {text : List Char} {s : Setting}
    {value? : Option (List Char)}
    (hform : Argument.ofChars text = .long s.name.toList value?) :
    d.take text = d.takeSetting s value? := by
  have hname : Setting.ofName? s.name.toList = some s := Setting.ofName?_eq_some_iff.mpr rfl
  rw [take, if_neg (by simp [h]), hform]
  simp only [hname]

theorem take_of_letters (h : d.separated = false) {text letters : List Char}
    (hform : Argument.ofChars text = .short letters) : d.take text = d.takeFlags letters := by
  rw [take, if_neg (by simp [h]), hform]

/-- Where an option waits, its value is next. -/
theorem take_of_waits (h : d.separated = false) {text : List Char}
    (hform : Argument.ofChars text = .plain text) {s : Setting}
    (hpending : d.pending = .option s) :
    d.take text = .ok { d with pending := .value s text } := by
  rw [take, if_neg (by simp [h]), hform]
  simp only [hpending]

/-- Where no option waits, what is no option and no flag is the name of the file. -/
theorem take_of_plain (h : d.separated = false) {text : List Char}
    (hform : Argument.ofChars text = .plain text) (hwaits : ∀ s, d.pending ≠ .option s) :
    d.take text = d.takeFilename text := by
  rw [take, if_neg (by simp [h]), hform]
  cases hpending : d.pending with
  | option s => exact absurd hpending (hwaits s)
  | _ => rfl

theorem assign_text {d : Draft} {s : Setting} (m : Numeral)
    (fits : s.least ≤ m.value ∧ m.value ≤ s.most) :
    d.assign s m.text = .ok ({ d with valueless := d.valueless.erase s }.put s m.value) := by
  have hvalue : s.value? m.text = some m.value :=
    Setting.value?_eq_some_iff.mpr ⟨⟨m, rfl, rfl⟩, fits⟩
  rw [assign, hvalue]

theorem take_joined (h : d.Nears done) (s : Setting) (m : Numeral)
    (fits : s.least ≤ m.value ∧ m.value ≤ s.most) :
    d.take ("--" ++ s.name ++ "=" ++ String.ofList m.text).toList
      = .ok (done.put s m.value) := by
  rw [take_of_setting h.separated (Argument.ofChars_joined s m.text), takeSetting, h.settles]
  show done.assign s m.text = _
  rw [assign_text m fits, h.clear.valueless]
  show Except.ok ({ done with valueless := [] }.put s m.value) = _
  rw [← h.clear.valueless]

theorem take_apart (h : d.Nears done) (s : Setting) :
    d.take ("--" ++ s.name).toList = .ok (done.await s) := by
  rw [take_of_setting h.separated (Argument.ofChars_apart s), takeSetting, h.settles]
  rfl

/-- A number in an argument of its own is taken when it has been judged, and that is later. -/
theorem nears_of_awaited (h : done.Clear) (s : Setting) (m : Numeral)
    (fits : s.least ≤ m.value ∧ m.value ≤ s.most) :
    ∃ d, (done.await s).take (String.ofList m.text).toList = .ok d
      ∧ d.Nears (done.put s m.value) := by
  refine ⟨{ done.await s with pending := .value s m.text }, ?_, ?_, h.put s m.value,
    h.separated, nofun⟩
  · have hseparated : (done.await s).separated = false := h.separated
    rw [String.toList_ofList]
    exact take_of_waits hseparated (Argument.ofChars_of_head m.head?_text) rfl
  · have herase : (done.valueless.insert s).erase s = done.valueless := by
      rw [h.valueless]
      cases s <;> rfl
    show ({ done.await s with pending := .nothing } : Draft).assign s m.text = _
    rw [assign_text m fits, await, herase, ← h.pending]

theorem takeFlag_verbose (h : d.Nears done) :
    d.takeFlag .verbose = .ok { done with verbosity := done.verbosity + 1 } := by
  rw [takeFlag, h.settles]
  rfl

/-- Every letter of a bundle counts. -/
theorem takeFlags_bundle (h : d.Nears done) (more : Nat) :
    d.takeFlags (List.replicate (more + 1) 'v')
      = .ok { done with verbosity := done.verbosity + UInt8.ofNat (more + 1) } := by
  induction more generalizing d done with
  | zero =>
    rw [List.replicate_succ, takeFlags]
    simp only [Flag.ofLetter?, takeFlag_verbose h]
    rfl
  | succ more ih =>
    rw [List.replicate_succ, takeFlags]
    simp only [Flag.ofLetter?, takeFlag_verbose h]
    rw [ih (h.clear.withVerbosity _).nears, UInt8.add_assoc, Nat.add_comm (more + 1) 1,
      UInt8.ofNat_add 1]
    rfl

/-- The name of the file settles what is pending and takes its place. -/
theorem take_filename (h : d.Nears done) {filename : String} (hfirst : d.filename? = none)
    (hplain : Argument.ofChars filename.toList = .plain filename.toList) :
    d.take filename.toList = .ok { done with filename? := some filename } := by
  rw [take_of_plain h.separated hplain h.waits, takeFilename, hfirst, h.settles,
    String.ofList_toList]
  rfl

/-! ## Many arguments -/

theorem takeAll_cons {d' : Draft} {text : String} (h : d.take text.toList = .ok d')
    (rest : List String) : d.takeAll (text :: rest) = d'.takeAll rest := by
  rw [takeAll, h]

theorem takeAll_append {d' : Draft} {first : List String} (h : d.takeAll first = .ok d')
    (second : List String) : d.takeAll (first ++ second) = d'.takeAll second := by
  induction first generalizing d with
  | nil =>
    cases h
    rfl
  | cons text rest ih =>
    rw [takeAll] at h
    cases htake : d.take text.toList with
    | ok next =>
      rw [htake] at h
      rw [List.cons_append, takeAll_cons htake, ih h]
    | error refusal =>
      rw [htake] at h
      cases h

/-- A part is read as what it means. -/
theorem takeAll_part (h : d.Nears done) (part : Part) :
    ∃ d', d.takeAll part.arguments = .ok d' ∧ d'.Nears (done.enter part) := by
  cases part with
  | setting s m fits joined =>
    cases joined with
    | true =>
        exact ⟨_, takeAll_cons (take_joined h s m fits) [], (h.clear.put s m.value).nears⟩
    | false =>
      obtain ⟨d', htake, hnears⟩ := nears_of_awaited h.clear s m fits
      exact ⟨d', (takeAll_cons (take_apart h s) _).trans (takeAll_cons htake []), hnears⟩
  | bundle more =>
    have htake : d.take ("-" ++ String.ofList (List.replicate (more + 1) 'v')).toList
        = .ok (done.enter (.bundle more)) :=
      (take_of_letters h.separated (Argument.ofChars_bundle more)).trans
        (takeFlags_bundle h more)
    exact ⟨_, takeAll_cons htake [], (h.clear.enter _).nears⟩
  | word =>
    have htake : d.take "--verbose".toList = .ok (done.enter .word) := by
      rw [take, if_neg (by simp [h.separated])]
      exact takeFlag_verbose h
    exact ⟨_, takeAll_cons htake [], (h.clear.enter _).nears⟩

/-- Parts are read one after another, each from where the one before has left the draft. -/
theorem takeAll_parts (h : d.Nears done) (parts : List Part) :
    ∃ d', d.takeAll (parts.flatMap Part.arguments) = .ok d'
      ∧ d'.Nears (parts.foldl enter done) := by
  induction parts generalizing d done with
  | nil => exact ⟨d, rfl, h⟩
  | cons part rest ih =>
    obtain ⟨next, htake, hnext⟩ := takeAll_part h part
    obtain ⟨last, hrest, hlast⟩ := ih hnext
    exact ⟨last, (takeAll_append htake _).trans hrest, hlast⟩

theorem filename?_of_settle {d d' : Draft} (h : d.settle = .ok d') :
    d'.filename? = d.filename? := by
  rcases settle_cases h with ⟨s, cs, n, -, -, rfl⟩ | ⟨-, rfl⟩
  · exact filename?_put _ s n
  · rfl

theorem finish_of_nears (h : d.Nears done) {filename : String}
    (hfilename : done.filename? = some filename) :
    d.finish = .ok ⟨filename, done.settings, done.seed?, done.verbosity⟩ := by
  unfold finish
  split
  · rename_i s hpending
    exact absurd hpending (h.waits s)
  · simp only [h.settles, bind, Except.bind, hfilename, h.clear.valueless]
    rfl

/-! ## What parts add up to -/

theorem filename?_foldl (d : Draft) (parts : List Part) :
    (parts.foldl enter d).filename? = d.filename? := by
  induction parts generalizing d with
  | nil => rfl
  | cons part rest ih =>
    rw [List.foldl_cons, ih]
    cases part with
    | setting s m fits joined => cases s <;> rfl
    | _ => rfl

theorem value_enter (d : Draft) (part : Part) (s : Setting) :
    (d.enter part).value s = (part.value? s).or (d.value s) := by
  cases part with
  | setting s' m fits joined =>
    rw [enter, value_put d fits.2, Part.value?]
    split <;> rfl
  | _ => cases s <;> rfl

theorem value_foldl (d : Draft) (parts : List Part) (s : Setting) :
    (parts.foldl enter d).value s = (lastValue? s parts).or (d.value s) := by
  induction parts generalizing d with
  | nil => rfl
  | cons part rest ih =>
    have hone : lastValue? s [part] = part.value? s := by
      rw [lastValue?, List.filterMap_cons]
      cases part.value? s <;> rfl
    rw [List.foldl_cons, ih, value_enter, ← List.singleton_append, lastValue?_append,
      Option.or_assoc, hone]

/-- The counter of flags goes round at 256. -/
theorem verbosity_foldl (d : Draft) (parts : List Part) :
    (parts.foldl enter d).verbosity.toNat = (d.verbosity.toNat + flagCount parts) % 256 := by
  induction parts generalizing d with
  | nil =>
    simp [flagCount]
  | cons part rest ih =>
    have hcount : flagCount (part :: rest) = part.flags + flagCount rest := by
      simp [flagCount]
    have hverbosity : (d.enter part).verbosity.toNat
        = (d.verbosity.toNat + part.flags) % 256 := by
      cases part with
      | setting s m fits joined =>
        cases s <;> simp [enter, put, Part.flags]
      | _ => simp [enter, UInt8.toNat_add, UInt8.toNat_ofNat']
    rw [List.foldl_cons, ih, hverbosity, hcount]
    omega

end Draft

/-- Every wording of a command line is read as what it means. -/
theorem parse_arguments (before after : List Part) {filename : String}
    (hplain : Argument.ofChars filename.toList = .plain filename.toList) :
    ∃ options, parse (before.flatMap Part.arguments
        ++ filename :: after.flatMap Part.arguments) = .ok options
      ∧ options.filename = filename
      ∧ (∀ s, options.value s = (lastValue? s (before ++ after)).or s.default?)
      ∧ options.verbosity.toNat = flagCount (before ++ after) % 256 := by
  have hstart : ({} : Draft).Clear := ⟨rfl, rfl, rfl⟩
  obtain ⟨early, hearly, hnears⟩ := Draft.takeAll_parts hstart.nears before
  let done : Draft := before.foldl Draft.enter {}
  have hnone : done.filename? = none := Draft.filename?_foldl {} before
  have hfirst : early.filename? = none :=
    (Draft.filename?_of_settle hnears.settles).symm.trans hnone
  let named : Draft := { done with filename? := some filename }
  have hnamed : named.Clear :=
    ⟨hnears.clear.pending, hnears.clear.valueless, hnears.clear.separated⟩
  obtain ⟨late, hlate, hlast⟩ := Draft.takeAll_parts hnamed.nears after
  let all : Draft := after.foldl Draft.enter named
  have hfilename : all.filename? = some filename := Draft.filename?_foldl named after
  refine ⟨⟨filename, all.settings, all.seed?, all.verbosity⟩, ?_, rfl, ?_, ?_⟩
  · rw [parse, Draft.takeAll_append hearly,
      Draft.takeAll_cons (Draft.take_filename hnears hfirst hplain), hlate]
    exact Draft.finish_of_nears hlast hfilename
  · intro s
    show all.value s = _
    have hsame : named.value s = done.value s := rfl
    rw [Draft.value_foldl, hsame, Draft.value_foldl, Draft.value_start, lastValue?_append,
      Option.or_assoc]
  · show all.verbosity.toNat = _
    have hbefore : named.verbosity.toNat = (0 + flagCount before) % 256 :=
      Draft.verbosity_foldl {} before
    rw [Draft.verbosity_foldl, hbefore, flagCount_append]
    omega

end Chip8.CommandLine
