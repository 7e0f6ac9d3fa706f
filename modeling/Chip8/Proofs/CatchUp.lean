import Chip8.Host.Session

/-!
# Running the cycles that are due

A turn of the host runs one cycle after another while a whole delay is pending. With a
delay this is a loop that gives its fuel no part in the result: `settle_of_lt` and
`settle_of_le` are its two branches, and it leaves less than a delay pending. Without one
there is always another cycle to run, so the loop ends only with a step that fails
(`catchUp_ends_iff`), and a machine that jumps to itself holds the host for ever
(`spinning_holds_host`). That is what becomes of speeds above a million.
-/

namespace Chip8

/-! ## Steps in a row -/

def Input.steps (count : Nat) : List Input := List.replicate count .step

namespace Machine

/-- The word at the program counter is a jump to itself. -/
def Spins (m : Machine) : Prop := m.next = .ok (.jump m.pc)

theorem Spins.step {m : Machine} (h : m.Spins) : m.step.2 = none ∧ m.step.1.Spins := by
  have hstep := step_of_ok h
  rw [hstep]
  -- the jump brings the program counter back, and nothing else counts for what comes next
  exact ⟨rfl, h⟩

theorem Spins.error_run {m : Machine} (h : m.Spins) (count : Nat) :
    (m.run (Input.steps count)).step.2 = none := by
  induction count generalizing m with
  | zero => exact h.step.1
  | succ count ih => exact ih h.step.2

end Machine

namespace Recorder

theorem machine_step (r : Recorder) : r.step.1.machine = r.machine.step.1 :=
  (r.machine_handle .step).1

theorem error_step (r : Recorder) : r.step.2 = r.machine.step.2 := (r.machine_handle .step).2

end Recorder

namespace Host

/-! ## The loop and its fuel -/

def CatchUp.recorder : CatchUp → Recorder
  | settled r _ => r
  | failed r _ => r
  | unsettled r => r

/-- Runs all the cycles that are due, as far as patience goes where there is no end to
them. -/
def settle (delay patience pending : Nat) (r : Recorder) : CatchUp :=
  catchUp delay (catchUpFuel delay patience pending) pending r

variable {delay : Nat}

theorem catchUp_succ (delay fuel pending : Nat) (r : Recorder) :
    catchUp delay (fuel + 1) pending r =
      if pending < delay then .settled r pending
      else
        match r.step.2 with
        | none => catchUp delay fuel (pending - delay) r.step.1
        | some e => .failed r.step.1 e := by
  rw [catchUp]
  rcases r.step with ⟨next, _ | e⟩ <;> rfl

theorem catchUpFuel_of_lt {pending : Nat} (patience : Nat) (h : pending < delay) :
    catchUpFuel delay patience pending = 1 := by
  rw [catchUpFuel, if_neg (by omega), Nat.div_eq_of_lt h]

theorem catchUpFuel_of_le {pending : Nat} (hdelay : 0 < delay) (patience : Nat)
    (h : delay ≤ pending) :
    catchUpFuel delay patience pending
      = catchUpFuel delay patience (pending - delay) + 1 := by
  rw [catchUpFuel, catchUpFuel, if_neg (by omega), if_neg (by omega),
    Nat.div_eq_sub_div hdelay h]

theorem settle_of_lt {pending : Nat} (patience : Nat) (h : pending < delay) (r : Recorder) :
    settle delay patience pending r = .settled r pending := by
  rw [settle, catchUpFuel_of_lt patience h, catchUp_succ, if_pos h]

theorem settle_of_le {pending : Nat} (hdelay : 0 < delay) (patience : Nat)
    (h : delay ≤ pending) (r : Recorder) :
    settle delay patience pending r =
      match r.step.2 with
      | none => settle delay patience (pending - delay) r.step.1
      | some e => .failed r.step.1 e := by
  rw [settle, catchUpFuel_of_le hdelay patience h, catchUp_succ, if_neg (by omega)]
  rfl

theorem settle_cases (hdelay : 0 < delay) (patience pending : Nat) (r : Recorder) :
    (∃ r' left, settle delay patience pending r = .settled r' left ∧ left < delay)
      ∨ ∃ r' e, settle delay patience pending r = .failed r' e := by
  -- the loop takes a delay off at a time, as division does
  induction pending, delay using Nat.div.inductionOn generalizing r with
  | ind pending delay h ih =>
    rw [settle_of_le hdelay patience h.2]
    cases r.step.2 with
    | none => exact ih hdelay r.step.1
    | some e => exact .inr ⟨r.step.1, e, rfl⟩
  | base pending delay h =>
    have hlt : pending < delay := by omega
    exact .inl ⟨r, pending, settle_of_lt patience hlt r, hlt⟩

/-! ## What the loop has run -/

/-- The steps that the loop tries: those that succeed, and the one that fails if there is
one. -/
def cyclesTried (delay fuel pending : Nat) (r : Recorder) : Nat :=
  match fuel with
  | 0 => 0
  | fuel + 1 =>
    if pending < delay then 0
    else
      match r.step.2 with
      | none => cyclesTried delay fuel (pending - delay) r.step.1 + 1
      | some _ => 1

/-- Wherever the loop is left, the machine has run the steps that were tried, and nothing
else. -/
theorem recorder_catchUp (delay fuel pending : Nat) (r : Recorder) :
    (catchUp delay fuel pending r).recorder
      = r.run (Input.steps (cyclesTried delay fuel pending r)) := by
  induction fuel generalizing pending r with
  | zero => rfl
  | succ fuel ih =>
    rw [catchUp_succ, cyclesTried]
    split
    · rfl
    · cases r.step.2 with
      | none => exact ih (pending - delay) r.step.1
      | some e => rfl

/-- If no step fails, the loop runs as many cycles as there are whole delays, and what
does not fill a delay stays pending. -/
theorem settle_eq_settled (hdelay : 0 < delay) (patience : Nat) {pending left : Nat}
    {r r' : Recorder} (h : settle delay patience pending r = .settled r' left) :
    left = pending % delay
      ∧ cyclesTried delay (catchUpFuel delay patience pending) pending r
        = pending / delay := by
  induction pending, delay using Nat.div.inductionOn generalizing r with
  | ind pending delay hle ih =>
    rw [settle_of_le hdelay patience hle.2] at h
    rw [catchUpFuel_of_le hdelay patience hle.2, cyclesTried, if_neg (by omega)]
    cases herror : r.step.2 with
    | none =>
      rw [herror] at h
      obtain ⟨hleft, hcount⟩ := ih hdelay h
      rw [Nat.mod_eq_sub_mod hle.2, Nat.div_eq_sub_div hdelay hle.2]
      exact ⟨hleft, congrArg (· + 1) hcount⟩
    | some e =>
      rw [herror] at h
      cases h
  | base pending delay hle =>
    have hlt : pending < delay := by omega
    rw [settle_of_lt patience hlt] at h
    cases h
    rw [catchUpFuel_of_lt patience hlt, cyclesTried, if_pos hlt, Nat.mod_eq_of_lt hlt,
      Nat.div_eq_of_lt hlt]
    exact ⟨rfl, rfl⟩

theorem settle_add (hdelay : 0 < delay) (patience pending more : Nat) (r : Recorder) :
    settle delay patience (pending + more) r =
      match settle delay patience pending r with
      | .settled r' left => settle delay patience (left + more) r'
      | broken => broken := by
  induction pending, delay using Nat.div.inductionOn generalizing r with
  | ind pending delay hle ih =>
    rw [settle_of_le hdelay patience hle.2, settle_of_le hdelay patience (by omega)]
    have hmore : pending + more - delay = pending - delay + more := by omega
    rw [hmore]
    cases r.step.2 with
    | none => exact ih hdelay r.step.1
    | some e => rfl
  | base pending delay hle =>
    have hlt : pending < delay := by omega
    rw [settle_of_lt patience hlt]

theorem settle_of_spins (hdelay : 0 < delay) (patience pending : Nat) {r : Recorder}
    (h : r.machine.Spins) :
    ∃ r' left, settle delay patience pending r = .settled r' left ∧ r'.machine.Spins := by
  induction pending, delay using Nat.div.inductionOn generalizing r with
  | ind pending delay hle ih =>
    have herror : r.step.2 = none := r.error_step.trans h.step.1
    have hspins : r.step.1.machine.Spins := r.machine_step ▸ h.step.2
    rw [settle_of_le hdelay patience hle.2, herror]
    exact ih hdelay hspins
  | base pending delay hle =>
    have hlt : pending < delay := by omega
    exact ⟨r, pending, settle_of_lt patience hlt r, h⟩

/-! ## Loops without end -/

/-- Without a delay the loop goes on for as long as no step fails, whatever its fuel. -/
theorem catchUp_of_no_delay {r : Recorder}
    (h : ∀ count, (r.machine.run (Input.steps count)).step.2 = none) (fuel pending : Nat) :
    ∃ r', catchUp 0 fuel pending r = .unsettled r' := by
  induction fuel generalizing r pending with
  | zero => exact ⟨r, rfl⟩
  | succ fuel ih =>
    have herror : r.step.2 = none := r.error_step.trans (h 0)
    rw [catchUp_succ, if_neg (Nat.not_lt_zero _), herror]
    refine ih (fun count => ?_) pending
    rw [r.machine_step]
    exact h (count + 1)

/-- A step that fails ends the loop, if nothing ended it before. -/
theorem catchUp_of_error {r : Recorder} {count : Nat}
    (h : (r.machine.run (Input.steps count)).step.2 ≠ none) (pending : Nat) (r' : Recorder) :
    catchUp delay (count + 1) pending r ≠ .unsettled r' := by
  induction count generalizing r pending with
  | zero =>
    rw [catchUp_succ]
    split
    · simp
    · cases herror : r.step.2 with
      | none => exact absurd (r.error_step.symm.trans herror) h
      | some e => simp
  | succ count ih =>
    rw [catchUp_succ]
    split
    · simp
    · cases r.step.2 with
      | none =>
        refine ih ?_ (pending - delay)
        rw [r.machine_step]
        exact h
      | some e => simp

/-! ## Sessions -/

theorem turn_eq (patience : Nat) (s : Session) (t : Turn) :
    s.turn delay patience t =
      match (s.receiveAll t.events).mode with
      | .quit => .quit (s.receiveAll t.events).recorder
      | .paused => .shown (s.receiveAll t.events)
      | .running =>
        match settle delay patience ((s.receiveAll t.events).pending + t.elapsed / 1000)
          (s.receiveAll t.events).recorder with
        | .settled r left => .shown ⟨r, .running, left⟩
        | .failed r e => .failed r e
        | .unsettled r => .unsettled r := by
  unfold Session.turn
  rcases s.receiveAll t.events with ⟨r, mode, pending⟩
  cases mode <;> rfl

theorem turn_ne_unsettled (hdelay : 0 < delay) (patience : Nat) (s : Session) (t : Turn)
    (r : Recorder) : s.turn delay patience t ≠ .unsettled r := by
  rw [turn_eq]
  cases (s.receiveAll t.events).mode with
  | quit => simp
  | paused => simp
  | running =>
    rcases settle_cases hdelay patience ((s.receiveAll t.events).pending + t.elapsed / 1000)
        (s.receiveAll t.events).recorder with ⟨r', left, hsettle, -⟩ | ⟨r', e, hsettle⟩
    · simp [hsettle]
    · simp [hsettle]

theorem ending_play_ne_unsettled (hdelay : 0 < delay) (patience : Nat) (s : Session)
    (turns : List Turn) (shown : Array Screen) :
    (s.play delay patience turns shown).ending ≠ .unsettled := by
  induction turns generalizing s shown with
  | nil => simp [Session.play]
  | cons t rest ih =>
    rw [Session.play]
    cases hturn : s.turn delay patience t with
    | shown s' => exact ih s' _
    | quit r => simp
    | failed r e => simp
    | unsettled r => exact absurd hturn (turn_ne_unsettled hdelay patience s t r)

/-! ## Speeds -/

theorem cycleDelay_pos_iff (s : Settings) : 0 < s.cycleDelay ↔ s.speed.toNat ≤ 1000000 := by
  rw [Settings.cycleDelay, Nat.div_pos_iff]
  omega

/-- **Catching up comes to an end up to a million cycles in a second.** There the loop
leaves less than a delay pending or fails with a step, and so every session that is played
ends. At higher speeds the loop ends iff the machine comes to a step that fails, whatever
time is pending and has passed. -/
theorem catchUp_ends_iff (s : Settings) (pending elapsed : Nat) (r : Recorder) :
    ((∃ fuel, ∀ r', catchUp s.cycleDelay fuel (pending + elapsed / 1000) r ≠ .unsettled r')
        ↔ s.speed.toNat ≤ 1000000
          ∨ ∃ count, (r.machine.run (Input.steps count)).step.2 ≠ none)
      ∧ (s.speed.toNat ≤ 1000000 → ∀ patience,
        ((∃ r' left,
            settle s.cycleDelay patience (pending + elapsed / 1000) r = .settled r' left
            ∧ left < s.cycleDelay)
          ∨ ∃ r' e, settle s.cycleDelay patience (pending + elapsed / 1000) r = .failed r' e)
        ∧ ∀ (session : Session) (turns : List Turn),
          (session.play s.cycleDelay patience turns).ending ≠ .unsettled) := by
  generalize pending + elapsed / 1000 = due
  rw [← cycleDelay_pos_iff]
  refine ⟨⟨?_, ?_⟩, ?_⟩
  · rintro ⟨fuel, hends⟩
    by_cases hfails : ∃ count, (r.machine.run (Input.steps count)).step.2 ≠ none
    · exact .inr hfails
    · left
      apply Nat.pos_of_ne_zero
      intro hzero
      rw [hzero] at hends
      simp only [not_exists, Decidable.not_not] at hfails
      obtain ⟨r', hr'⟩ := catchUp_of_no_delay hfails fuel due
      exact hends r' hr'
  · rintro (hdelay | ⟨count, hcount⟩)
    · exact ⟨_, fun r' => catchUp_ne_unsettled hdelay r r' 0⟩
    · exact ⟨_, catchUp_of_error hcount due⟩
  · intro hdelay patience
    exact ⟨settle_cases hdelay patience due r, fun session turns =>
      ending_play_ne_unsettled hdelay patience session turns #[]⟩

/-- A program that jumps to itself. -/
def spinning : Machine := (Machine.fresh (.cycle #[])).run [.load [0x12, 0x00]]

theorem spins_spinning : spinning.Spins := by
  have hword : spinning.fetch = ⟨0x1200⟩ := by decide +kernel
  show spinning.next = .ok (.jump 0x200)
  rw [Machine.next_eq_ok_iff, hword]
  exact ⟨by decide, rfl⟩

/-- At the highest speed with a delay the loop leaves nothing pending. -/
theorem spinning_ends_at_million :
    let s : Settings := { speed := 1000000 }
    s.speed.toNat ≤ 1000000
      ∧ ((∃ r' left, settle s.cycleDelay 0 (7 + 5999 / 1000) { machine := spinning }
            = .settled r' left ∧ left < s.cycleDelay)
        ∨ ∃ r' e, settle s.cycleDelay 0 (7 + 5999 / 1000) { machine := spinning }
            = .failed r' e) := by
  intro s
  have hspeed : s.speed.toNat ≤ 1000000 := by decide
  exact ⟨hspeed, ((catchUp_ends_iff s 7 5999 { machine := spinning }).2 hspeed 0).1⟩

/-- **One cycle in a second more, and a program that jumps to itself holds the host for
ever.** No time need pass: the first turn does not reach its screen. -/
theorem spinning_holds_host :
    let s : Settings := { speed := 1000001 }
    (¬ ∃ fuel, ∀ r', catchUp s.cycleDelay fuel 0 { machine := spinning } ≠ .unsettled r')
      ∧ ∀ patience,
        (Session.play s.cycleDelay patience { recorder := { machine := spinning } }
          [⟨0, []⟩]).ending = .unsettled := by
  intro s
  have hzero : s.cycleDelay = 0 := by decide
  have hnever := catchUp_of_no_delay (r := { machine := spinning }) spins_spinning.error_run
  rw [hzero]
  refine ⟨?_, ?_⟩
  · rintro ⟨fuel, hends⟩
    obtain ⟨r', hr'⟩ := hnever fuel 0
    exact hends r' hr'
  · intro patience
    obtain ⟨r', hr'⟩ := hnever patience 0
    simp [Session.play, Session.turn, Session.receiveAll, catchUpFuel, hr']

end Host

end Chip8
