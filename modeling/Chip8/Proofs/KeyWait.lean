import Chip8.Proofs.KeyInfluence
import Chip8.Proofs.TimerLaw

/-!
# Waiting for a key

A word that waits for a key goes back to itself while no key is down. Round after round
nothing but the timers moves, whatever happens to the keys between two steps, as long as
each step finds all of them up (`run_of_waits`). The first step that finds a key down
reads the lowest one and goes on to the next word (`step_of_key`).

Which keys a step finds down is told by the inputs before it alone: a key is as the last
input has left it that touched the key (`Input.lastTouch?`), and programs and steps touch
none.
-/

namespace Chip8

namespace Input

/-- How an input leaves a key, if it touches the key. A key is named by the last digit of
a byte. -/
def touch? (k : Nibble) : Input → Option Bool
  | .setKey key down => if key.toNat % 16 = k.val then some down else none
  | .setKeys keys => some (keys.entry k)
  | .load _ => none
  | .step => none

/-- How the last input that touches a key leaves it, if there is one. -/
def lastTouch? (k : Nibble) (inputs : List Input) : Option Bool :=
  (inputs.filterMap (touch? k)).getLast?

theorem lastTouch?_cons (k : Nibble) (input : Input) (rest : List Input) :
    lastTouch? k (input :: rest) = (lastTouch? k rest).or (input.touch? k) := by
  unfold lastTouch?
  rw [List.filterMap_cons]
  cases input.touch? k with
  | none => exact Option.or_none.symm
  | some down =>
    rw [List.getLast?_cons]
    cases (rest.filterMap (touch? k)).getLast? <;> rfl

end Input

namespace Machine

variable {m : Machine} {inputs : List Input} {x : Nibble}

/-! ## Keys -/

theorem entry_keypad_handle (m : Machine) (input : Input) (k : Nibble) :
    (m.handle input).1.keypad.keys.entry k
      = (input.touch? k).getD (m.keypad.keys.entry k) := by
  cases input with
  | load program => exact congrArg (·.keys.entry k) (keypad_load m program)
  | step => exact congrArg (·.keys.entry k) (keypad_step m)
  | setKeys keys => rfl
  | setKey key down =>
    show (m.keypad.keys.update (Keypad.key key) down).entry k = _
    rw [Bank.entry_update, Input.touch?]
    simp only [Fin.ext_iff, Keypad.val_key]
    split <;> rfl

/-- After a run a key is as the last input has left it that touched it, or as it was. -/
theorem entry_keypad_run (m : Machine) (inputs : List Input) (k : Nibble) :
    (m.run inputs).keypad.keys.entry k
      = (Input.lastTouch? k inputs).getD (m.keypad.keys.entry k) := by
  induction inputs generalizing m with
  | nil => rfl
  | cons input rest ih =>
    rw [run, ih, entry_keypad_handle, Input.lastTouch?_cons]
    cases Input.lastTouch? k rest <;> rfl

/-- Keys that are moved and are then back where they were leave nothing behind. -/
theorem run_of_back {moves : List Input} (hmoves : ∀ input ∈ moves, input.movesKeys = true)
    (hback : ∀ k, (Input.lastTouch? k moves).getD (m.keypad.keys.entry k)
      = m.keypad.keys.entry k) : m.run moves = m := by
  have hkeypad : (m.run moves).keypad = m.keypad := by
    apply Keypad.ext_key
    intro k
    rw [entry_keypad_run]
    exact hback k
  rw [(run_of_movesKeys hmoves m).1, hkeypad]

/-! ## One round -/

theorem step_of_up (h : m.performed? .step = some (.awaitKey x))
    (hup : m.keypad.lowest? = none) :
    m.step = (m.tick, none) := by
  have hback : m.pc + 2 - 2 = m.pc := UInt16.add_sub_cancel _ _
  have hup' : m.advance.keypad.lowest? = none := hup
  rw [step_of_ok (performed?_step_eq_some_iff.mp h)]
  show ((m.advance.awaitKey x).tick, none) = _
  rw [awaitKey, hup']
  show ({ m with pc := m.pc + 2 - 2 }.tick, none) = _
  rw [hback]

theorem step_of_key {k : Nibble} (h : m.performed? .step = some (.awaitKey x))
    (hlowest : m.keypad.lowest? = some k) :
    m.step
      = ({ m with v := m.v.update x (UInt8.ofNat k.val), pc := m.pc + 2 }.tick, none) := by
  have hlowest' : m.advance.keypad.lowest? = some k := hlowest
  rw [step_of_ok (performed?_step_eq_some_iff.mp h)]
  show ((m.advance.awaitKey x).tick, none) = _
  rw [awaitKey, hlowest']
  rfl

/-! ## Rounds -/

/-- Keys are moved and steps are taken, and every step finds all keys up. -/
structure Waits (m : Machine) (inputs : List Input) : Prop where
  schedule : ∀ input ∈ inputs, input.movesKeys = true ∨ input.isStep = true
  up : ∀ moment ∈ m.history inputs, moment.2.isStep = true →
    ∀ k : Nibble, moment.1.keypad.keys.entry k = false

/-- The same machine with other keys, and with timers that have counted down `rounds`
times. -/
def afterRounds (m : Machine) (keypad : Keypad) (rounds : Nat) : Machine :=
  { m with
    keypad := keypad
    delay := .ofNat (m.delay.toNat - rounds)
    sound := .ofNat (m.sound.toNat - rounds) }

theorem Waits.tail {input : Input} {rest : List Input} (h : m.Waits (input :: rest)) :
    (m.handle input).1.Waits rest :=
  ⟨fun later hlater => h.schedule later (List.mem_cons_of_mem _ hlater),
    fun moment hmoment => h.up moment (List.mem_cons_of_mem _ hmoment)⟩

theorem afterRounds_zero (m : Machine) (keypad : Keypad) :
    m.afterRounds keypad 0 = { m with keypad := keypad } := by
  simp [afterRounds]

/-- A tick is what is left of a round. -/
theorem afterRounds_one (m : Machine) : m.afterRounds m.keypad 1 = m.tick := by
  have hdelay : m.tick.delay.toNat = m.delay.toNat - 1 := Timer.toNat_countdown m.delay
  have hsound : m.tick.sound.toNat = m.sound.toNat - 1 := Timer.toNat_countdown m.sound
  rw [afterRounds, ← hdelay, ← hsound, UInt8.ofNat_toNat, UInt8.ofNat_toNat]
  rfl

theorem afterRounds_afterRounds (m : Machine) (first second : Keypad) (i j : Nat) :
    (m.afterRounds first i).afterRounds second j = m.afterRounds second (i + j) := by
  have hcount (timer : UInt8) : (UInt8.ofNat (timer.toNat - i)).toNat - j
      = timer.toNat - (i + j) := by
    have := timer.toNat_lt
    rw [UInt8.toNat_ofNat']
    omega
  simp only [afterRounds, hcount]

/-- The word that waits is still there when only keys have moved and timers have counted
down. -/
theorem awaits_afterRounds (h : m.performed? .step = some (.awaitKey x)) (keypad : Keypad)
    (rounds : Nat) : (m.afterRounds keypad rounds).performed? .step = some (.awaitKey x) := by
  have hfetch : (m.afterRounds keypad rounds).fetch = m.fetch := rfl
  rw [performed?_step_iff_of_coded rfl] at h ⊢
  rw [hfetch]
  exact h

/-- What one input does while a machine waits. -/
theorem handle_of_waits {input : Input} {rest : List Input}
    (hawaits : m.performed? .step = some (.awaitKey x)) (h : m.Waits (input :: rest)) :
    ∃ keypad, m.handle input
      = (m.afterRounds keypad (if input.isStep then 1 else 0), none) := by
  rcases h.schedule input List.mem_cons_self with hkeys | hstep
  · cases input with
    | setKey key down => exact ⟨_, Prod.ext (m.afterRounds_zero _).symm rfl⟩
    | setKeys keys => exact ⟨_, Prod.ext (m.afterRounds_zero _).symm rfl⟩
    | _ => cases hkeys
  · cases input with
    | step =>
      have hup := (m.keypad.lowest?_eq_none_iff).mpr (h.up (m, .step) List.mem_cons_self rfl)
      refine ⟨m.keypad, ?_⟩
      rw [Input.isStep, if_pos rfl, afterRounds_one]
      exact step_of_up hawaits hup
    | _ => cases hstep

/-- While every step finds all keys up, the machine stays where it is and only the timers
count down. -/
theorem run_of_waits (hawaits : m.performed? .step = some (.awaitKey x))
    (h : m.Waits inputs) :
    (∀ outcome ∈ m.outcomes inputs, outcome.2 = none)
      ∧ m.run inputs
        = m.afterRounds (m.run inputs).keypad (inputs.countP Input.isStep) := by
  induction inputs generalizing m with
  | nil => exact ⟨nofun, (m.afterRounds_zero m.keypad).symm⟩
  | cons input rest ih =>
    obtain ⟨keypad, hhandle⟩ := handle_of_waits hawaits h
    have hrest := h.tail
    rw [hhandle] at hrest
    obtain ⟨hsucceed, hrun⟩ := ih (awaits_afterRounds hawaits keypad _) hrest
    rw [afterRounds_afterRounds] at hrun
    rw [outcomes, run, hhandle, List.countP_cons, Nat.add_comm]
    exact ⟨List.forall_mem_cons.mpr ⟨rfl, hsucceed⟩, hrun⟩

/-- **Waiting for a key is a loop without side effects.** A machine has the word at its
program counter that waits for a key. Keys are moved at any time and steps are taken, and
each of the steps finds all keys up. Then

* all steps succeed, and the machine is as it was but for its keys and its timers, which
  have counted down once for each step;
* a key is as the last input has left it that touched it, or as it was if none has;
* if keys are down now, the next step puts the lowest of them into the register that the
  word names, goes on to the next word and counts down the timers, and that is all it
  does;
* keys that are moved and are back where they were before the next step are not noticed. -/
theorem key_wait_stable (m : Machine) (hfamily : m.fetch.family = 0xF)
    (hkk : m.fetch.kk = 0x0A) (inputs : List Input) (hwaits : m.Waits inputs) :
    let rounds := inputs.countP Input.isStep
    let now := m.run inputs
    (∀ outcome ∈ m.outcomes inputs, outcome.2 = none)
      ∧ now = { m with
          keypad := now.keypad
          delay := .ofNat (m.delay.toNat - rounds)
          sound := .ofNat (m.sound.toNat - rounds) }
      ∧ (∀ k : Nibble, now.keypad.keys.entry k
          = (Input.lastTouch? k inputs).getD (m.keypad.keys.entry k))
      ∧ ((∃ k : Nibble, now.keypad.keys.entry k = true) →
        ∃ k : Nibble, now.keypad.keys.entry k = true
          ∧ (∀ j < k, now.keypad.keys.entry j = false)
          ∧ now.step = ({ now with
              v := now.v.update m.fetch.x (UInt8.ofNat k.val)
              pc := m.pc + 2 }.tick, none))
      ∧ ∀ moves : List Input, (∀ input ∈ moves, input.movesKeys = true) →
        (∀ k : Nibble, (Input.lastTouch? k moves).getD (now.keypad.keys.entry k)
          = now.keypad.keys.entry k) →
        m.run (inputs ++ moves) = now := by
  intro rounds now
  have hawaits : m.performed? .step = some (.awaitKey m.fetch.x) :=
    (performed?_step_iff_of_coded rfl).mpr ⟨hfamily, hkk, rfl⟩
  obtain ⟨hsucceed, hrun⟩ := run_of_waits hawaits hwaits
  change now = m.afterRounds now.keypad rounds at hrun
  refine ⟨hsucceed, hrun, m.entry_keypad_run inputs, ?_, ?_⟩
  · rintro ⟨k, hdown⟩
    have hstill : now.performed? .step = some (.awaitKey m.fetch.x) := by
      rw [hrun]
      exact awaits_afterRounds hawaits _ _
    have hpc : now.pc = m.pc := by
      rw [hrun]
      rfl
    cases hlowest : now.keypad.lowest? with
    | none =>
      rw [Keypad.lowest?_eq_none_iff] at hlowest
      rw [hlowest k] at hdown
      cases hdown
    | some lowest =>
      obtain ⟨hlowestDown, hbelow⟩ := (now.keypad.lowest?_eq_some_iff lowest).mp hlowest
      refine ⟨lowest, hlowestDown, hbelow, ?_⟩
      rw [step_of_key hstill hlowest, hpc]
  · intro moves hmoves hback
    rw [run_append]
    exact run_of_back hmoves hback

/-- A wait at the last address, whose word ends in the first byte of memory. In three
rounds keys 5 and C go down and up again and are not noticed; then keys C and B are down,
and B is read. -/
theorem key_wait_stable_at_end :
    let m : Machine :=
      { fresh (.cycle #[]) with
        pc := 0xFFFF
        memory := (Memory.initial.write 0xFFF 0xF3).write 0 0x0A
        delay := 2
        sound := 9 }
    let inputs : List Input :=
      [.setKey 0x15 true, .setKey 5 false, .step, .setKeys (.fill true),
        .setKeys (.fill false), .step,
        .step, .setKey 0xC true, .setKey 0x1B true]
    m.Waits inputs
      ∧ (m.run inputs).pc = 0xFFFF ∧ (m.run inputs).delay = 0 ∧ (m.run inputs).sound = 6
      ∧ (m.run inputs).step.1.reg 3 = 0xB ∧ (m.run inputs).step.1.pc = 1
      ∧ m.run (inputs
          ++ [.setKey 0xC false, .setKey 7 true, .setKey 0xC true, .setKey 7 false])
        = m.run inputs := by
  intro m inputs
  have hword : m.fetch = ⟨0xF30A⟩ := by decide +kernel
  have hwaits : m.Waits inputs := ⟨by decide, by decide +kernel⟩
  obtain ⟨-, hnow, hkeys, hread, hback⟩ :=
    key_wait_stable m (by rw [hword]; rfl) (by rw [hword]; rfl) inputs hwaits
  have hdown (k : Nibble) : (m.run inputs).keypad.keys.entry k
      = decide (k = 0xB ∨ k = 0xC) := by
    rw [hkeys]
    revert k
    decide
  obtain ⟨k, hk, hbelow, hstep⟩ := hread ⟨0xB, hdown 0xB⟩
  have hlowest : k = 0xB := by
    rcases of_decide_eq_true ((hdown k).symm.trans hk) with rfl | rfl
    · rfl
    · exact absurd ((hdown 0xB).symm.trans (hbelow 0xB (by decide))) (by decide)
  subst hlowest
  refine ⟨hwaits, by rw [hnow], by rw [hnow]; rfl, by rw [hnow]; rfl, ?_, ?_, ?_⟩
  · rw [hstep, hword]
    exact (Bank.entry_update ..).trans (if_pos rfl)
  · rw [hstep]
    show (0xFFFF + 2 : UInt16) = 1
    decide
  · refine hback _ (by decide) fun k => ?_
    rw [hdown]
    revert k
    decide

end Machine

end Chip8
