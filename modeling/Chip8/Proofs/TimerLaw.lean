import Chip8.Proofs.Frame

/-!
# The timers over a run

The two timers work alike. A word sets each of them to a register, every step that
succeeds counts both down to zero by one, and nothing else touches them. So a timer shows
what it was last set to, less the number of steps that have succeeded from then on, and
never less than zero: `value_run` is the part of a run that does not set it, `timer_law`
the whole run. The step that sets a timer counts, since it succeeds and counts down after
it has set it; a step that fails does not.
-/

namespace Chip8

/-- The timers of a machine. -/
inductive Timer where
  | delay
  | sound

namespace Machine

/-- Whether an input is a step that succeeds. -/
def ticks (m : Machine) : Input → Bool
  | .step => m.step.2.isNone
  | _ => false

/-- The number of steps of a history that have succeeded. -/
def tickCount (moments : List (Machine × Input)) : Nat :=
  moments.countP fun (m, input) => m.ticks input

end Machine

namespace Timer

/-- The steps that are left of a timer. -/
def value (timer : Timer) (m : Machine) : UInt8 :=
  match timer with
  | delay => m.delay
  | sound => m.sound

/-- The low byte of the words that set a timer. -/
def code : Timer → UInt8
  | delay => 0x15
  | sound => 0x18

/-- The instruction that sets a timer to a register. -/
def setting (timer : Timer) (x : Nibble) : Instruction :=
  match timer with
  | delay => .setDelay x
  | sound => .setSound x

/-- Whether an input is a step on a word that sets a timer. -/
def isSetBy (timer : Timer) (m : Machine) : Input → Bool
  | .step => m.fetch.family.val == 0xF && m.fetch.kk == timer.code
  | _ => false

/-- No step of a history sets the timer. -/
def Rests (timer : Timer) (moments : List (Machine × Input)) : Prop :=
  ∀ moment ∈ moments, timer.isSetBy moment.1 moment.2 = false

instance (timer : Timer) (moments : List (Machine × Input)) :
    Decidable (timer.Rests moments) :=
  inferInstanceAs (Decidable (∀ moment ∈ moments, timer.isSetBy moment.1 moment.2 = false))

variable {timer : Timer} {m : Machine} {input : Input}

/-! ## One instruction -/

theorem toNat_countdown (d : UInt8) :
    (if d = 0 then 0 else d - 1 : UInt8).toNat = d.toNat - 1 := by
  split
  · rename_i hzero
    rw [hzero]
    rfl
  · rename_i hpos
    have hne : d.toNat ≠ 0 := fun h => hpos (UInt8.toNat_inj.mp h)
    have hlt := d.toNat_lt
    rw [UInt8.toNat_sub]
    show (2 ^ 8 - 1 + d.toNat) % 2 ^ 8 = d.toNat - 1
    omega

theorem value_tick (timer : Timer) (m : Machine) :
    (timer.value m.tick).toNat = (timer.value m).toNat - 1 := by
  cases timer with
  | delay => exact toNat_countdown m.delay
  | sound => exact toNat_countdown m.sound

theorem coded?_setting (timer : Timer) (x : Nibble) :
    (timer.setting x).coded? = some (x, timer.code) := by
  cases timer <;> rfl

theorem value_execute_setting (timer : Timer) (m : Machine) (x : Nibble) :
    timer.value (m.execute (timer.setting x)).1 = m.reg x := by
  cases timer <;> rfl

/-- Each timer has its own instruction, and no other sets it. -/
theorem value_execute_of_ne {instruction : Instruction}
    (h : ∀ x, instruction ≠ timer.setting x) :
    timer.value (m.execute instruction).1 = timer.value m := by
  cases timer with
  | delay =>
    show (m.execute instruction).1.delay = m.delay
    rw [Machine.delay_execute]
    split
    · rename_i x
      exact absurd rfl (h x)
    · rfl
  | sound =>
    show (m.execute instruction).1.sound = m.sound
    rw [Machine.sound_execute]
    split
    · rename_i x
      exact absurd rfl (h x)
    · rfl

/-! ## One input -/

theorem performed?_eq_setting_iff {x : Nibble} :
    m.performed? input = some (timer.setting x)
      ↔ timer.isSetBy m input = true ∧ x = m.fetch.x := by
  cases input with
  | step =>
    have hfamily : m.fetch.family = 0xF ↔ m.fetch.family.val = 0xF := Fin.ext_iff
    rw [Machine.performed?_step_iff_of_coded (timer.coded?_setting x), isSetBy,
      Bool.and_eq_true, beq_iff_eq, beq_iff_eq, ← hfamily, and_assoc]
  | _ => simp [Machine.performed?, isSetBy]

theorem performed?_of_isSetBy (h : timer.isSetBy m input = true) :
    m.performed? input = some (timer.setting m.fetch.x) :=
  performed?_eq_setting_iff.mpr ⟨h, rfl⟩

end Timer

namespace Machine

/-- The steps that succeed are those that carry an instruction out. -/
theorem ticks_eq_isSome (m : Machine) (input : Input) :
    m.ticks input = (m.performed? input).isSome := by
  cases input with
  | step =>
    cases hnext : m.next with
    | ok instruction =>
      rw [performed?_step_eq_some_iff.mpr hnext, ticks, step_of_ok hnext]
      rfl
    | error e => simp [ticks, performed?, step_of_error hnext]
  | _ => rfl

end Machine

namespace Timer

variable {timer : Timer} {m : Machine} {input : Input}

theorem ticks_of_isSetBy (h : timer.isSetBy m input = true) : m.ticks input = true := by
  rw [m.ticks_eq_isSome, performed?_of_isSetBy h]
  rfl

/-- The timer is set before it is counted down. -/
theorem value_of_isSetBy (h : timer.isSetBy m input = true) :
    (timer.value (m.handle input).1).toNat = (m.reg m.fetch.x).toNat - 1 := by
  obtain ⟨-, -, hhandle⟩ := Machine.handle_of_performed (performed?_of_isSetBy h)
  rw [hhandle]
  show (timer.value (m.advance.execute (timer.setting m.fetch.x)).1.tick).toNat = _
  rw [value_tick, value_execute_setting]
  rfl

theorem value_of_not_isSetBy (h : timer.isSetBy m input = false) :
    (timer.value (m.handle input).1).toNat
      = (timer.value m).toNat - if m.ticks input then 1 else 0 := by
  rw [m.ticks_eq_isSome]
  cases hperformed : m.performed? input with
  | none =>
    rw [Machine.handle_of_idle hperformed]
    cases timer <;> rfl
  | some instruction =>
    have hne : ∀ x, instruction ≠ timer.setting x := by
      rintro x rfl
      rw [performed?_eq_setting_iff, h] at hperformed
      cases hperformed.1
    obtain ⟨-, -, hhandle⟩ := Machine.handle_of_performed hperformed
    rw [hhandle]
    show (timer.value (m.advance.execute instruction).1.tick).toNat = _
    rw [value_tick, value_execute_of_ne hne]
    cases timer <;> rfl

/-- No time passes in a step that fails. -/
theorem value_of_error (h : m.step.2 ≠ none) : timer.value m.step.1 = timer.value m := by
  cases hnext : m.next with
  | ok instruction =>
    rw [Machine.step_of_ok hnext] at h
    exact absurd rfl h
  | error e =>
    rw [Machine.step_of_error hnext]
    cases timer <;> rfl

/-- The delay is read before it is counted down. -/
theorem delay_of_readDelay (hfamily : m.fetch.family = 0xF) (hkk : m.fetch.kk = 0x07) :
    m.step.2 = none ∧ m.step.1.reg m.fetch.x = m.delay := by
  have hperformed : m.performed? .step = some (.readDelay m.fetch.x) :=
    (Machine.performed?_step_iff_of_coded rfl).mpr ⟨hfamily, hkk, rfl⟩
  obtain ⟨-, -, hstep⟩ := Machine.handle_of_performed hperformed
  refine ⟨Machine.error_step_of_performed hperformed, ?_⟩
  show (m.handle .step).1.reg m.fetch.x = m.delay
  rw [hstep]
  show (m.advance.setReg m.fetch.x m.delay).reg m.fetch.x = m.delay
  rw [Machine.reg_setReg, if_pos rfl]

theorem isSounding_iff (m : Machine) : m.isSounding = true ↔ 0 < m.sound.toNat := by
  have hzero : m.sound = 0 ↔ m.sound.toNat = 0 := UInt8.toNat_inj.symm
  rw [Machine.isSounding, bne_iff_ne, ne_eq, hzero]
  omega

/-! ## Runs -/

theorem tickCount_cons (m : Machine) (input : Input) (moments : List (Machine × Input)) :
    Machine.tickCount ((m, input) :: moments)
      = (if m.ticks input then 1 else 0) + Machine.tickCount moments := by
  rw [Machine.tickCount, List.countP_cons, Nat.add_comm]
  rfl

/-- While nothing sets a timer, it loses one for each step that succeeds, down to zero. -/
theorem value_run (m : Machine) (inputs : List Input) (h : timer.Rests (m.history inputs)) :
    (timer.value (m.run inputs)).toNat
      = (timer.value m).toNat - Machine.tickCount (m.history inputs) := by
  induction inputs generalizing m with
  | nil => rfl
  | cons input rest ih =>
    have hinput := h (m, input) List.mem_cons_self
    have hrest :=
      ih (m.handle input).1 fun moment hmoment => h moment (List.mem_cons_of_mem _ hmoment)
    rw [Machine.run, hrest, value_of_not_isSetBy hinput, Machine.history, tickCount_cons,
      Nat.sub_sub]

/-- From the step on that sets a timer last, that step included, it loses one for each
step that succeeds. -/
theorem value_run_of_isSetBy (m : Machine) {before after : List Input}
    (hset : timer.isSetBy (m.run before) .step = true)
    (hrests : timer.Rests ((m.run before).step.1.history after)) :
    (timer.value (m.run (before ++ .step :: after))).toNat
      = ((m.run before).reg (m.run before).fetch.x).toNat
        - Machine.tickCount ((m.run before).history (.step :: after)) := by
  have hvalue : (timer.value (m.run before).step.1).toNat
      = ((m.run before).reg (m.run before).fetch.x).toNat - 1 := value_of_isSetBy hset
  have hrest := value_run (m.run before).step.1 after hrests
  rw [Machine.run_append]
  show (timer.value ((m.run before).step.1.run after)).toNat = _
  rw [hrest, hvalue, Machine.history, tickCount_cons, ticks_of_isSetBy hset, if_pos rfl,
    Nat.sub_sub]
  rfl

/-- Of the steps of a run that set a timer one is the last, if there are any. -/
theorem rests_or_set_last (timer : Timer) (m : Machine) (inputs : List Input) :
    timer.Rests (m.history inputs)
      ∨ ∃ before after, inputs = before ++ .step :: after
        ∧ timer.isSetBy (m.run before) .step = true
        ∧ timer.Rests ((m.run before).step.1.history after) := by
  induction inputs generalizing m with
  | nil => exact .inl nofun
  | cons input rest ih =>
    rcases ih (m.handle input).1 with hrests | ⟨before, after, rfl, hset, hrests⟩
    · cases hset : timer.isSetBy m input with
      | true =>
        obtain ⟨rfl, -, -⟩ := Machine.handle_of_performed (performed?_of_isSetBy hset)
        exact .inr ⟨[], rest, rfl, hset, hrests⟩
      | false => exact .inl (List.forall_mem_cons.mpr ⟨hset, hrests⟩)
    · exact .inr ⟨input :: before, after, rfl, hset, hrests⟩

/-- **The law of the timers.** After a run from any machine, a timer shows

* what it showed before, less the number of steps that have succeeded, if no step has set it;
* the register that the last step to set it named, as that step found it, less the number
  of steps that have succeeded from that step on,

and zero where that would be less. One of the two is the case. A step that sets a timer
succeeds and so does one that waits for a key, whether or not a key is down; a step that
fails leaves the timer as it is. A step that reads the delay reads it before it counts it
down. A tone is heard while there is sound left. -/
theorem timer_law (timer : Timer) (m : Machine) (inputs : List Input) :
    (timer.Rests (m.history inputs)
        ∨ ∃ before after, inputs = before ++ .step :: after
          ∧ timer.isSetBy (m.run before) .step = true
          ∧ timer.Rests ((m.run before).step.1.history after))
      ∧ (timer.Rests (m.history inputs) →
        (timer.value (m.run inputs)).toNat
          = (timer.value m).toNat - Machine.tickCount (m.history inputs))
      ∧ (∀ before after, inputs = before ++ .step :: after →
        timer.isSetBy (m.run before) .step = true →
        timer.Rests ((m.run before).step.1.history after) →
        (timer.value (m.run inputs)).toNat
          = ((m.run before).reg (m.run before).fetch.x).toNat
            - Machine.tickCount ((m.run before).history (.step :: after)))
      ∧ ∀ n : Machine,
        (timer.isSetBy n .step = true → n.step.2 = none)
        ∧ (n.fetch.family = 0xF → n.fetch.kk = 0x0A → n.step.2 = none)
        ∧ (n.step.2 ≠ none → timer.value n.step.1 = timer.value n)
        ∧ (n.fetch.family = 0xF → n.fetch.kk = 0x07 →
          n.step.2 = none ∧ n.step.1.reg n.fetch.x = n.delay)
        ∧ (n.isSounding = true ↔ 0 < n.sound.toNat) := by
  refine ⟨timer.rests_or_set_last m inputs, value_run m inputs, ?_, ?_⟩
  · rintro before after rfl hset hrests
    exact value_run_of_isSetBy m hset hrests
  · intro n
    refine ⟨?_, ?_, value_of_error, delay_of_readDelay, isSounding_iff n⟩
    · intro hset
      exact Machine.error_step_of_performed (performed?_of_isSetBy hset)
    · intro hfamily hkk
      have hperformed : n.performed? .step = some (.awaitKey n.fetch.x) :=
        (Machine.performed?_step_iff_of_coded rfl).mpr ⟨hfamily, hkk, rfl⟩
      exact Machine.error_step_of_performed hperformed

/-- A program that sets the delay to five, reads it, returns from no call and waits for a
key. -/
def delayed : List UInt8 := [0x60, 0x05, 0xF0, 0x15, 0xF1, 0x07, 0x00, 0xEE, 0xF2, 0x0A]

/-- Four steps have succeeded from the one on that sets the delay, two of them in waiting;
the sound, which is never set, has lost one more. -/
theorem timer_law_of_delayed :
    let m : Machine := { Machine.fresh (.cycle #[]) with sound := 7 }
    let before : List Input := [.load delayed, .step]
    let after : List Input := [.step, .step, .setKey 3 false, .step, .step]
    let inputs := before ++ .step :: after
    delay.isSetBy (m.run before) .step = true
      ∧ delay.Rests ((m.run before).step.1.history after)
      ∧ sound.Rests (m.history inputs)
      ∧ (m.run inputs).delay.toNat = 1 ∧ (m.run inputs).sound.toNat = 2 := by
  intro m before after inputs
  have hstates : delay.isSetBy (m.run before) .step = true
      ∧ delay.Rests ((m.run before).step.1.history after)
      ∧ sound.Rests (m.history inputs)
      ∧ ((m.run before).reg (m.run before).fetch.x).toNat = 5
      ∧ Machine.tickCount ((m.run before).history (.step :: after)) = 4
      ∧ Machine.tickCount (m.history inputs) = 5 := by decide +kernel
  obtain ⟨hset, hlater, hsilent, hfive, hfour, hall⟩ := hstates
  obtain ⟨-, -, hdelay, -⟩ := timer_law delay m inputs
  obtain ⟨-, hsound, -⟩ := timer_law sound m inputs
  have hdelayed := hdelay before after rfl hset hlater
  have hsounding := hsound hsilent
  rw [hfive, hfour] at hdelayed
  rw [hall] at hsounding
  exact ⟨hset, hlater, hsilent, hdelayed, hsounding⟩

end Timer

end Chip8
