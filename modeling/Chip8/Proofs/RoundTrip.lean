import Chip8.Proofs.Wording

/-!
# Command lines round-trip

What is worded is read (`parse_arguments`), and what is read has been worded: each number
that comes out of any arguments is given by a part that stands among them, or is the
one where none is given (`gives_of_parse`). As the number of a part is in the range of its
option, so is every number that comes out (`fits_of_parse`), and no speed and no scale is
zero.

The second half is an invariant of drafts over any arguments, whether they are parts or
not. A value can be pending while other things are read, so besides the numbers taken so
far (`Draft.Sourced`) it keeps where the pending value and the name of its option stand
(`Draft.Grounded`).
-/

namespace Chip8.CommandLine

namespace Argument

/-- The four forms of an argument. -/
theorem ofChars_cases (cs : List Char) :
    ofChars cs = separator ∨ (∃ letters, letters ≠ [] ∧ ofChars cs = short letters)
      ∨ (∃ rest, cs = '-' :: '-' :: rest
        ∧ ofChars cs = long (splitValue rest).1 (splitValue rest).2)
      ∨ ofChars cs = plain cs := by
  unfold ofChars
  split
  · exact .inl rfl
  · exact .inr (.inr (.inl ⟨_, rfl, rfl⟩))
  · exact .inr (.inl ⟨_, List.cons_ne_nil _ _, rfl⟩)
  · exact .inr (.inr (.inr rfl))

end Argument

/-! ## Numbers that are given -/

variable {seen : List String} {s : Setting} {n : Nat}

theorem Gives.append (h : Gives seen s n) (more : List String) :
    Gives (seen ++ more) s n := by
  obtain ⟨part, hvalue, harguments⟩ := h
  exact ⟨part, hvalue, harguments.trans (List.prefix_append seen more).isInfix⟩

/-- A value that is taken, in one of its two places, is given. -/
theorem gives_of_value? {cs : List Char} (h : s.value? cs = some n)
    (hseen : ["--" ++ s.name, String.ofList cs] <:+: seen
      ∨ ["--" ++ s.name ++ "=" ++ String.ofList cs] <:+: seen) : Gives seen s n := by
  obtain ⟨⟨m, rfl, rfl⟩, fits⟩ := Setting.value?_eq_some_iff.mp h
  rcases hseen with hapart | hjoined
  · exact ⟨.setting s m fits false, if_pos rfl, hapart⟩
  · exact ⟨.setting s m fits true, if_pos rfl, hjoined⟩

/-- A number that is given is in the range of its option. -/
theorem Gives.fits (h : Gives seen s n) : s.least ≤ n ∧ n ≤ s.most := by
  obtain ⟨part, hvalue, -⟩ := h
  cases part with
  | setting s' m fits joined =>
    rw [Part.value?] at hvalue
    split at hvalue
    · rename_i hsame
      cases hvalue
      exact hsame ▸ fits
    · cases hvalue
  | _ => cases hvalue

theorem Setting.default?_fits (h : s.default? = some n) : s.least ≤ n ∧ n ≤ s.most := by
  cases s <;> cases h <;> decide

namespace Draft

/-- Every number of a draft is given by the arguments read, or is the one where none is
given. -/
def Sourced (d : Draft) (seen : List String) : Prop :=
  ∀ s n, d.value s = some n → s.default? = some n ∨ Gives seen s n

/-- What is left to settle stands among the arguments read, too. -/
structure Grounded (d : Draft) (seen : List String) : Prop where
  sourced : d.Sourced seen
  option : ∀ s, d.pending = .option s → d.separated = false → ["--" ++ s.name] <:+ seen
  value : ∀ s cs, d.pending = .value s cs → ["--" ++ s.name, String.ofList cs] <:+: seen

/-- Nothing is left to settle. -/
structure Settled (d : Draft) (seen : List String) : Prop where
  sourced : d.Sourced seen
  pending : d.pending = .nothing

variable {d d' : Draft}

theorem Sourced.append (h : d.Sourced seen) (more : List String) : d.Sourced (seen ++ more) :=
  fun s n hvalue => (h s n hvalue).imp_right (·.append more)

theorem Sourced.put (h : d.Sourced seen) (hgives : Gives seen s n) :
    (d.put s n).Sourced seen := by
  intro s' n' hvalue
  rw [value_put d hgives.fits.2] at hvalue
  split at hvalue
  · rename_i hsame
    cases hvalue
    subst hsame
    exact .inr hgives
  · exact h s' n' hvalue

theorem Settled.append (h : d.Settled seen) (more : List String) : d.Settled (seen ++ more) :=
  ⟨h.sourced.append more, h.pending⟩

theorem Settled.grounded (h : d.Settled seen) : d.Grounded seen where
  sourced := h.sourced
  option s hoption := by
    rw [h.pending] at hoption
    cases hoption
  value s cs hvalue := by
    rw [h.pending] at hvalue
    cases hvalue

theorem Grounded.settle (h : d.Grounded seen) (hsettle : d.settle = .ok d') :
    d'.Settled seen := by
  rcases settle_cases hsettle with ⟨s, cs, n, hpending, hvalue, rfl⟩ | ⟨-, rfl⟩
  · have hgives := gives_of_value? hvalue (.inl (h.value s cs hpending))
    exact ⟨Sourced.put h.sourced hgives, pending_put _ s n⟩
  · exact ⟨h.sourced, rfl⟩

/-- Whatever settles first goes on from a settled draft. -/
theorem Grounded.settle_bind {α : Type} (h : d.Grounded seen) {f : Draft → Except Refusal α}
    {a : α} (hbind : (d.settle >>= f) = .ok a) :
    ∃ next : Draft, next.Settled seen ∧ f next = .ok a := by
  cases hsettle : d.settle with
  | error refusal =>
    rw [hsettle] at hbind
    cases hbind
  | ok next =>
    rw [hsettle] at hbind
    exact ⟨next, h.settle hsettle, hbind⟩

/-! ## One argument -/

theorem Grounded.takeFlag (h : d.Grounded seen) {flag : Flag}
    (htake : d.takeFlag flag = .ok d') :
    d'.Settled seen := by
  obtain ⟨next, hnext, hflag⟩ := h.settle_bind htake
  cases flag with
  | verbose =>
    cases hflag
    exact ⟨hnext.sourced, hnext.pending⟩
  | _ => cases hflag

theorem Grounded.takeFlags (h : d.Grounded seen) {letters : List Char}
    (hletters : letters ≠ []) (htake : d.takeFlags letters = .ok d') : d'.Settled seen := by
  induction letters generalizing d with
  | nil => exact absurd rfl hletters
  | cons letter rest ih =>
    rw [Draft.takeFlags] at htake
    split at htake
    · cases htake
    · split at htake
      · rename_i next hflag
        have hnext := h.takeFlag hflag
        cases rest with
        | nil =>
          cases htake
          exact hnext
        | cons letter rest =>
          exact ih hnext.grounded (List.cons_ne_nil _ _) htake
      · cases htake

theorem Grounded.takeFilename (h : d.Grounded seen) {cs : List Char}
    (htake : d.takeFilename cs = .ok d') : d'.Settled seen := by
  unfold Draft.takeFilename at htake
  split at htake
  · cases htake
  · obtain ⟨next, hnext, hname⟩ := h.settle_bind htake
    cases hname
    exact ⟨hnext.sourced, hnext.pending⟩

/-- An argument that names an option gives it a number, or makes it wait for one. -/
theorem Grounded.takeSetting (h : d.Grounded seen) {text : String} {rest : List Char}
    (htext : text.toList = '-' :: '-' :: rest)
    (hname : (Argument.splitValue rest).1 = s.name.toList)
    (htake : d.takeSetting s (Argument.splitValue rest).2 = .ok d') :
    d'.Grounded (seen ++ [text]) := by
  obtain ⟨next, hnext, hsetting⟩ := h.settle_bind htake
  rcases Argument.splitValue_cases rest with ⟨hnone, hrest⟩ | ⟨cs, hsome, hrest⟩
  · rw [hnone] at hsetting
    cases hsetting
    have hseen : text = "--" ++ s.name := by
      apply String.toList_inj.mp
      rw [htext, hrest, hname]
      simp
    refine ⟨hnext.sourced.append _, ?_, ?_⟩
    · intro s' hoption _
      cases hoption
      rw [hseen]
      exact List.suffix_append seen _
    · intro s' cs hvalue
      cases hvalue
  · rw [hsome] at hsetting
    obtain ⟨n, hvalue, rfl⟩ := assign_eq_ok_iff.mp hsetting
    have hseen : text = "--" ++ s.name ++ "=" ++ String.ofList cs := by
      apply String.toList_inj.mp
      rw [htext, hrest, hname]
      simp
    have hgives : Gives (seen ++ [text]) s n :=
      gives_of_value? hvalue (.inr (hseen ▸ (List.suffix_append seen [text]).isInfix))
    apply Settled.grounded
    exact ⟨Sourced.put (hnext.sourced.append [text]) hgives,
      (pending_put _ s n).trans hnext.pending⟩

/-- The argument after the name of an option can be its value. -/
theorem Grounded.await_value (h : d.Grounded seen) (hseparated : d.separated = false)
    (hpending : d.pending = .option s) (text : String) :
    ({ d with pending := .value s text.toList } : Draft).Grounded (seen ++ [text]) := by
  refine ⟨h.sourced.append [text], nofun, ?_⟩
  intro s' cs hvalue
  cases hvalue
  obtain ⟨before, hbefore⟩ := h.option s hpending hseparated
  rw [String.ofList_toList, ← hbefore, List.append_assoc]
  exact (List.suffix_append before _).isInfix

theorem Grounded.take (h : d.Grounded seen) {text : String}
    (htake : d.take text.toList = .ok d') :
    d'.Grounded (seen ++ [text]) := by
  unfold Draft.take at htake
  split at htake
  · exact ((h.takeFilename htake).append [text]).grounded
  · rename_i hseparated
    rcases Argument.ofChars_cases text.toList with
      hform | ⟨letters, hletters, hform⟩ | ⟨rest, htext, hform⟩ | hform
    · simp only [hform] at htake
      cases htake
      -- an option in front of `--` waits in vain
      refine ⟨h.sourced.append [text], nofun, ?_⟩
      intro s cs hvalue
      exact (h.value s cs hvalue).trans (List.prefix_append seen [text]).isInfix
    · simp only [hform] at htake
      exact ((h.takeFlags hletters htake).append [text]).grounded
    · simp only [hform] at htake
      split at htake
      · rename_i s hname
        exact h.takeSetting htext (Setting.ofName?_eq_some_iff.mp hname) htake
      · cases htake
      · exact ((h.takeFlag htake).append [text]).grounded
      · cases htake
    · simp only [hform] at htake
      split at htake
      · rename_i s hpending
        cases htake
        exact h.await_value (Bool.not_eq_true _ ▸ hseparated) hpending text
      · exact ((h.takeFilename htake).append [text]).grounded

/-! ## All arguments -/

theorem Grounded.takeAll (h : d.Grounded seen) {arguments : List String}
    (htake : d.takeAll arguments = .ok d') : d'.Grounded (seen ++ arguments) := by
  induction arguments generalizing d seen with
  | nil =>
    cases htake
    rw [List.append_nil]
    exact h
  | cons text rest ih =>
    rw [Draft.takeAll] at htake
    split at htake
    · rename_i next hnext
      rw [List.append_cons]
      exact ih (h.take hnext) htake
    · cases htake

theorem Grounded.finish (h : d.Grounded seen) {options : Options}
    (hfinish : d.finish = .ok options) (hvalue : options.value s = some n) :
    s.default? = some n ∨ Gives seen s n := by
  unfold Draft.finish at hfinish
  split at hfinish
  · cases hfinish
  · obtain ⟨last, hlast, hfinish⟩ := h.settle_bind hfinish
    split at hfinish
    · cases hfinish
    · split at hfinish
      · cases hfinish
        exact hlast.sourced s n hvalue
      · cases hfinish

end Draft

/-- Every number of a command line that is read is given by its arguments, or is the
one where none is given. -/
theorem gives_of_parse {arguments : List String} {options : Options}
    (h : parse arguments = .ok options) (hvalue : options.value s = some n) :
    s.default? = some n ∨ Gives arguments s n := by
  have hstart : ({} : Draft).Settled [] := by
    refine ⟨fun s n hdefault => .inl ?_, rfl⟩
    rw [← Draft.value_start, hdefault]
  unfold parse at h
  split at h
  · rename_i d htake
    exact (hstart.grounded.takeAll htake).finish h hvalue
  · cases h

theorem fits_of_parse {arguments : List String} {options : Options}
    (h : parse arguments = .ok options) (hvalue : options.value s = some n) :
    s.least ≤ n ∧ n ≤ s.most := by
  rcases gives_of_parse h hvalue with hdefault | hgives
  · exact Setting.default?_fits hdefault
  · exact hgives.fits

/-- **Command lines round-trip.** Take any parts in any order, and the name of a file
anywhere among them; the name is empty, or a dash alone, or does not begin with a dash.
These arguments are read: as that file, with the last speed, scale and seed that a part
gives, or else with 100, 10 and no seed, and with as many flags as there are, modulo 256.

The other way round, whatever arguments are read, the speed and the scale are between 1
and `2 ^ 32 - 1`, the seed is less than `2 ^ 64`, and each number is given by a part among
the arguments or is the one where none is given. The host is started with these settings,
so it never has to raise a speed or a scale from zero. -/
theorem command_line_round_trip :
    (∀ (before after : List Part) (filename : String),
      filename = "" ∨ filename = "-" ∨ filename.toList.head? ≠ some '-' →
        let parts := before ++ after
        ∃ options, parse (before.flatMap Part.arguments
            ++ filename :: after.flatMap Part.arguments) = .ok options
          ∧ options.filename = filename
          ∧ options.settings.speed.toNat = (lastValue? .speed parts).getD 100
          ∧ options.settings.scale.toNat = (lastValue? .scale parts).getD 10
          ∧ options.seed?.map UInt64.toNat = lastValue? .seed parts
          ∧ options.verbosity.toNat = flagCount parts % 256)
      ∧ ∀ (arguments : List String) (options : Options), parse arguments = .ok options →
        (1 ≤ options.settings.speed.toNat ∧ options.settings.speed.toNat ≤ 2 ^ 32 - 1)
          ∧ (1 ≤ options.settings.scale.toNat ∧ options.settings.scale.toNat ≤ 2 ^ 32 - 1)
          ∧ (∀ seed, options.seed? = some seed → seed.toNat < 2 ^ 64)
          ∧ (∀ s n, options.value s = some n → s.default? = some n ∨ Gives arguments s n)
          ∧ options.settings.cycleDelay = 1000000 / options.settings.speed.toNat
          ∧ options.settings.zoom = options.settings.scale
          ∧ ∀ (env : Program.Environment) (recorder : Recorder),
            Program.boot env options = .ok recorder →
            let result :=
              Host.run options.settings env.desktop env.patience recorder env.turns
            Program.run env arguments = .finished
              ((env.logRequest?.map (·.complaints)).getD [])
              result.frames result.log.toList (result.ending.map .host) := by
  constructor
  · intro before after filename hname parts
    have hplain : Argument.ofChars filename.toList = .plain filename.toList := by
      rcases hname with rfl | rfl | hhead
      · rfl
      · rfl
      · exact Argument.ofChars_of_head hhead
    obtain ⟨options, hparse, hfilename, hvalue, hverbosity⟩ :=
      parse_arguments before after hplain
    refine ⟨options, hparse, hfilename, ?_, ?_, ?_, hverbosity⟩
    · have hspeed := hvalue .speed
      change some options.settings.speed.toNat = (lastValue? .speed parts).or (some 100)
        at hspeed
      rw [Option.or_some] at hspeed
      exact Option.some.inj hspeed
    · have hscale := hvalue .scale
      change some options.settings.scale.toNat = (lastValue? .scale parts).or (some 10)
        at hscale
      rw [Option.or_some] at hscale
      exact Option.some.inj hscale
    · exact (hvalue .seed).trans Option.or_none
  · intro arguments options hparse
    have hspeed : 1 ≤ options.settings.speed.toNat
        ∧ options.settings.speed.toNat ≤ 2 ^ 32 - 1 :=
      fits_of_parse (s := .speed) hparse rfl
    have hscale : 1 ≤ options.settings.scale.toNat
        ∧ options.settings.scale.toNat ≤ 2 ^ 32 - 1 :=
      fits_of_parse (s := .scale) hparse rfl
    refine ⟨hspeed, hscale, ?_, fun s n => gives_of_parse hparse, ?_, ?_, ?_⟩
    · intro seed hseed
      have hfits : 0 ≤ seed.toNat ∧ seed.toNat ≤ 2 ^ 64 - 1 :=
        fits_of_parse (s := .seed) hparse (congrArg (Option.map UInt64.toNat) hseed)
      omega
    · rw [Host.Settings.cycleDelay, Nat.max_eq_left hspeed.1]
    · unfold Host.Settings.zoom
      rw [if_neg]
      intro hzero
      rw [hzero] at hscale
      exact absurd hscale.1 (by decide)
    · intro env recorder hboot result
      rw [Program.run, hparse]
      simp only [hboot]
      rfl

/-- Nine arguments with a seed, a speed that is given twice, and three flags around a
dash. The program runs to a good end with them. -/
theorem command_line_round_trip_of_nine :
    let arguments := ["--seed", "+007", "-vv", "-", "--speed=0050", "--verbose", "--speed",
      "4294967295", "--scale=1"]
    let env : Program.Environment := { contents := fun _ => .ok [0x12, 0x00] }
    (∃ options, parse arguments = .ok options ∧ options.filename = "-"
        ∧ options.settings = ⟨4294967295, 1⟩ ∧ options.settings.cycleDelay = 0
        ∧ options.seed?.map UInt64.toNat = some 7 ∧ options.verbosity.toNat = 3)
      ∧ (Program.run env arguments).exitCode = 0 := by
  intro arguments env
  let before : List Part := [.setting .seed ⟨7, true, 2⟩ (by decide) false, .bundle 1]
  let after : List Part :=
    [.setting .speed ⟨50, false, 2⟩ (by decide) true, .word,
      .setting .speed ⟨4294967295, false, 0⟩ (by decide) false,
      .setting .scale ⟨1, false, 0⟩ (by decide) true]
  have harguments : before.flatMap Part.arguments ++ "-" :: after.flatMap Part.arguments
      = arguments := by decide
  obtain ⟨hread, hback⟩ := command_line_round_trip
  obtain ⟨options, hparse, hfilename, hspeed, hscale, hseed, hverbosity⟩ :=
    hread before after "-" (.inr (.inl rfl))
  rw [harguments] at hparse
  obtain ⟨-, -, -, -, hdelay, -, hrun⟩ := hback arguments options hparse
  have hsettings : options.settings = ⟨4294967295, 1⟩ := by
    have hspeed' : options.settings.speed = 4294967295 := UInt32.toNat_inj.mp hspeed
    have hscale' : options.settings.scale = 1 := UInt32.toNat_inj.mp hscale
    show Host.Settings.mk options.settings.speed options.settings.scale = _
    rw [hspeed', hscale']
  rw [hsettings] at hdelay
  refine ⟨⟨options, hparse, hfilename, hsettings, ?_, hseed, hverbosity⟩, ?_⟩
  · rw [hsettings, hdelay]
    rfl
  · rw [hrun env _ rfl, hsettings]
    rfl

end Chip8.CommandLine
