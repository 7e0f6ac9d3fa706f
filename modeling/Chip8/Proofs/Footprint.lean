import Chip8.Proofs.FlagArithmetic
import Chip8.Proofs.TimerLaw

/-!
# What a word leaves alone

A word names the registers that it writes (`Word.written`): the others keep their values.
The same holds of each other part of the machine, in terms of the digits of the word
(`Footprint`). Storing registers and reading them back leaves the index alone, logic
leaves the flag alone, and a return leaves the address that it goes back to in its slot.
Only the timers change without being named, since they count down in every step that
succeeds.
-/

namespace Chip8

/-- The registers that a word writes. -/
def Word.written (w : Word) : List Nibble :=
  match w.family with
  | 0x6 | 0x7 | 0xC => [w.x]
  | 0x8 =>
    match w.n with
    | 0x4 | 0x5 | 0x6 | 0x7 | 0xE => [w.x, Machine.flag]
    | _ => [w.x]
  | 0xD => [Machine.flag]
  | 0xF =>
    match w.kk with
    | 0x07 | 0x0A => [w.x]
    | 0x65 => Nibble.all.filter (· ≤ w.x)
    | _ => []
  | _ => []

namespace Instruction

/-- The registers that an instruction writes. -/
def written : Instruction → List Nibble
  | setByte x _ | addByte x _ | random x _ | readDelay x | awaitKey x => [x]
  | compute operation x _ =>
    match operation with
    | .copy | .or | .and | .xor => [x]
    | .add | .subtract | .halve | .subtractFrom | .double => [x, Machine.flag]
  | draw _ _ _ => [Machine.flag]
  | load last => Nibble.all.filter (· ≤ last)
  | _ => []

/-- A word writes the registers that its instruction writes. -/
theorem written_of_decode? {w : Word} {instruction : Instruction}
    (h : decode? w = some instruction) : w.written = instruction.written := by
  have hfamily := family_of_decode? h
  rw [Word.written, hfamily]
  cases instruction with
  | clear | ret | jump target | call target | setIndex address | jumpFrom base => rfl
  | skip condition => cases condition <;> rfl
  | setByte x byte | addByte x byte | random x mask =>
    obtain ⟨-, rfl, -⟩ := (decode?_eq_some_iff_of_valued rfl w).mp h
    rfl
  | compute operation x y =>
    obtain ⟨-, hdigit, rfl, -⟩ := (decode?_eq_compute_iff _ _ _ _).mp h
    -- the last digit tells the operation, and so whether there is a flag
    unfold arithmetic? at hdigit
    split at hdigit <;> cases hdigit
    all_goals
      rename_i hn
      simp only [family, hn]
      rfl
  | draw x y height => rfl
  | readDelay x | awaitKey x | setDelay x | setSound x | addIndex x | glyph x | decimal x | store x
  | load x =>
    obtain ⟨-, hkk, rfl⟩ := (decode?_eq_some_iff_of_coded rfl w).mp h
    simp only [family, hkk]
    rfl

end Instruction

namespace Machine

/-- What a step does to a machine on a word, part by part. A part that the word does not
name stays as it is, but for the timers, which count down in every step. -/
structure Footprint (m : Machine) (w : Word) (after : Machine) : Prop where
  registers : ∀ r, r ∉ w.written → after.reg r = m.reg r
  index : w.family ≠ 0xA → ¬ (w.family = 0xF ∧ w.kk ∈ [0x1E, 0x29]) → after.index = m.index
  /-- A call takes the slot above those in use. -/
  call : w.family = 0x2 → after.stack.depth.val = m.stack.depth.val + 1
    ∧ ∀ k : Fin 16, after.stack.slots.get k
        = if k.val = m.stack.depth.val then m.pc + 2 else m.stack.slots.get k
  /-- A return leaves its address in its slot. -/
  ret : w.family = 0x0 → w.n = 0xE →
    after.stack.depth.val + 1 = m.stack.depth.val ∧ after.stack.slots = m.stack.slots
  stack : w.family ≠ 0x2 → ¬ (w.family = 0x0 ∧ w.n = 0xE) → after.stack = m.stack
  memory : ¬ (w.family = 0xF ∧ w.kk ∈ [0x33, 0x55]) → after.memory = m.memory
  screen : ¬ (w.family = 0x0 ∧ w.n = 0x0) → w.family ≠ 0xD → after.screen = m.screen
  random : w.family ≠ 0xC → after.random = m.random
  keypad : after.keypad = m.keypad
  timers : ∀ timer : Timer, (timer.value after).toNat
    = (if w.family = 0xF ∧ w.kk = timer.code then m.reg w.x else timer.value m).toNat - 1

/-! ## One part at a time -/

theorem entry_update_of_not_mem (v : Bank UInt8) {x r : Nibble} (b : UInt8) (h : r ∉ [x]) :
    (v.update x b).entry r = v.entry r := by
  rw [Bank.entry_update, if_neg fun hx => h (List.mem_singleton.mpr hx.symm)]

/-- Registers that an instruction does not write keep their values. -/
theorem reg_execute_of_not_mem (m : Machine) {instruction : Instruction} {r : Nibble}
    (h : r ∉ instruction.written) : (m.execute instruction).1.reg r = m.reg r := by
  cases instruction with
  | ret => rw [execute_ret]; rfl
  | call target => rw [execute_call]; rfl
  | skip condition => rw [execute_skip]; rfl
  | setByte x byte | addByte x byte | random x mask | readDelay x =>
    exact entry_update_of_not_mem m.v _ h
  | awaitKey x =>
    show (m.awaitKey x).reg r = m.reg r
    unfold awaitKey
    split
    · exact entry_update_of_not_mem m.v _ h
    · rfl
  | compute operation x y =>
    refine m.reg_compute_of_ne y (fun hx => h ?_) ?_
    · rw [hx]
      cases operation <;> exact List.mem_cons_self
    · cases operation with
      | copy | or | and | xor => exact .inr (by decide)
      | add | subtract | halve | subtractFrom | double =>
        refine .inl fun hflag => h ?_
        rw [hflag]
        exact List.mem_cons_of_mem _ List.mem_cons_self
  | draw x y height =>
    show (m.draw x y height).reg r = m.reg r
    rw [draw_eq]
    exact entry_update_of_not_mem m.v _ h
  | load last =>
    have hlast : ¬ r.val ≤ last.val := fun hle =>
      h (List.mem_filter.mpr ⟨List.mem_finRange r, decide_eq_true hle⟩)
    exact (Bank.entry_ofFn ..).trans (if_neg hlast)
  | _ => rfl

theorem stack_tick (m : Machine) : m.tick.stack = m.stack := rfl

section Decoded

variable {w : Word} {instruction : Instruction}

theorem index_execute_of_decode? (m : Machine)
    (hdecode : Instruction.decode? w = some instruction) (hset : w.family ≠ 0xA)
    (hcoded : ¬ (w.family = 0xF ∧ w.kk ∈ [0x1E, 0x29])) :
    (m.execute instruction).1.index = m.index := by
  rw [index_execute]
  cases instruction with
  | setIndex address => exact absurd (Instruction.family_of_decode? hdecode) hset
  | addIndex x | glyph x =>
    obtain ⟨hfamily, hkk, -⟩ := (Instruction.decode?_eq_some_iff_of_coded rfl w).mp hdecode
    exact absurd ⟨hfamily, by rw [hkk]; decide⟩ hcoded
  | _ => rfl

theorem stack_execute_of_decode? (m : Machine)
    (hdecode : Instruction.decode? w = some instruction) (hcall : w.family ≠ 0x2)
    (hret : ¬ (w.family = 0x0 ∧ w.n = 0xE)) :
    (m.execute instruction).1.stack = m.stack := by
  rw [stack_execute]
  cases instruction with
  | ret => exact absurd ((Instruction.decode?_eq_ret_iff w).mp hdecode) hret
  | call target => exact absurd (Instruction.family_of_decode? hdecode) hcall
  | _ => rfl

theorem memory_execute_of_decode? (m : Machine)
    (hdecode : Instruction.decode? w = some instruction)
    (hcoded : ¬ (w.family = 0xF ∧ w.kk ∈ [0x33, 0x55])) :
    (m.execute instruction).1.memory = m.memory := by
  rw [memory_execute]
  cases instruction with
  | decimal x | store last =>
    obtain ⟨hfamily, hkk, -⟩ := (Instruction.decode?_eq_some_iff_of_coded rfl w).mp hdecode
    exact absurd ⟨hfamily, by rw [hkk]; decide⟩ hcoded
  | _ => rfl

theorem screen_execute_of_decode? (m : Machine)
    (hdecode : Instruction.decode? w = some instruction)
    (hclear : ¬ (w.family = 0x0 ∧ w.n = 0x0)) (hdraw : w.family ≠ 0xD) :
    (m.execute instruction).1.screen = m.screen := by
  rw [screen_execute]
  cases instruction with
  | clear => exact absurd ((Instruction.decode?_eq_clear_iff w).mp hdecode) hclear
  | draw x y height => exact absurd (Instruction.family_of_decode? hdecode) hdraw
  | _ => rfl

theorem random_execute_of_decode? (m : Machine)
    (hdecode : Instruction.decode? w = some instruction) (hrandom : w.family ≠ 0xC) :
    (m.execute instruction).1.random = m.random := by
  rw [random_execute]
  cases instruction with
  | random x mask => exact absurd (Instruction.family_of_decode? hdecode) hrandom
  | _ => rfl

/-- A timer is set by its own word, to the register that the word names. -/
theorem value_execute_of_decode? (m : Machine) (timer : Timer)
    (hdecode : Instruction.decode? w = some instruction) :
    timer.value (m.execute instruction).1
      = if w.family = 0xF ∧ w.kk = timer.code then m.reg w.x else timer.value m := by
  have hcoded (x : Nibble) :=
    Instruction.decode?_eq_some_iff_of_coded (timer.coded?_setting x) w
  by_cases hset : w.family = 0xF ∧ w.kk = timer.code
  · have hsetting := (hcoded w.x).mpr ⟨hset.1, hset.2, rfl⟩
    rw [if_pos hset, Option.some.inj (hdecode.symm.trans hsetting),
      timer.value_execute_setting]
  · rw [if_neg hset]
    refine timer.value_execute_of_ne ?_
    rintro x rfl
    obtain ⟨hfamily, hkk, -⟩ := (hcoded x).mp hdecode
    exact hset ⟨hfamily, hkk⟩

end Decoded

/-- **What a word leaves alone.** A step that succeeds changes nothing but what its word
names, and the timers. -/
theorem step_footprint (m : Machine) (h : m.step.2 = none) :
    m.Footprint m.fetch m.step.1 := by
  obtain ⟨instruction, hnext⟩ := error_step_eq_none_iff_next.mp h
  obtain ⟨hdecode, hfault⟩ := next_eq_ok_iff.mp hnext
  have hafter : m.step.1 = (m.advance.execute instruction).1.tick := by rw [step_of_ok hnext]
  rw [hafter]
  constructor
  case registers =>
    intro r hr
    rw [Instruction.written_of_decode? hdecode] at hr
    exact m.advance.reg_execute_of_not_mem hr
  case index => exact m.advance.index_execute_of_decode? hdecode
  case call =>
    intro hfamily
    have hcall := (Instruction.decode?_eq_call_iff m.fetch m.fetch.nnn).mpr ⟨hfamily, rfl⟩
    obtain rfl := Option.some.inj (hdecode.symm.trans hcall)
    have hfree : m.stack.isFull = false := by simpa [fault?] using hfault
    rw [stack_tick, stack_execute]
    exact m.stack.slots_push (m.pc + 2) hfree
  case ret =>
    intro hfamily hn
    have hret := (Instruction.decode?_eq_ret_iff m.fetch).mpr ⟨hfamily, hn⟩
    obtain rfl := Option.some.inj (hdecode.symm.trans hret)
    have hused : m.stack.isEmpty = false := by simpa [fault?] using hfault
    rw [stack_tick, stack_execute]
    exact m.stack.slots_pop hused
  case stack => exact m.advance.stack_execute_of_decode? hdecode
  case memory => exact m.advance.memory_execute_of_decode? hdecode
  case screen => exact m.advance.screen_execute_of_decode? hdecode
  case random => exact m.advance.random_execute_of_decode? hdecode
  case keypad => exact m.advance.keypad_execute instruction
  case timers =>
    intro timer
    rw [timer.value_tick, m.advance.value_execute_of_decode? timer hdecode]
    cases timer <;> rfl

/-- A machine with a program that calls the word after it, which stores three registers,
and returns. -/
def calling : Machine :=
  (fresh (.cycle #[])).run [.load [0x22, 0x02, 0xF2, 0x55, 0x00, 0xEE]]

/-- The call takes the first slot, storing leaves the index alone, and the return leaves
the slot. -/
theorem step_footprint_of_calling :
    let called := calling.step.1
    let stored := called.step.1
    let returned := stored.step.1
    (called.stack.depth.val = 1 ∧ called.stack.slots.get 0 = 0x202
        ∧ ∀ k : Fin 16, k.val ≠ 0 → called.stack.slots.get k = calling.stack.slots.get k)
      ∧ (called.fetch.family = 0xF ∧ called.fetch.kk = 0x55 ∧ stored.index = called.index
        ∧ stored.stack = called.stack ∧ ∀ r, stored.reg r = called.reg r)
      ∧ returned.stack.depth.val = 0 ∧ returned.stack.slots = called.stack.slots := by
  intro called stored returned
  have hwords : (calling.fetch.family = 0x2 ∧ calling.step.2 = none
        ∧ calling.pc = 0x200 ∧ calling.stack.depth.val = 0)
      ∧ (called.fetch.family = 0xF ∧ called.fetch.kk = 0x55 ∧ called.step.2 = none)
      ∧ stored.fetch.family = 0x0 ∧ stored.fetch.n = 0xE ∧ stored.step.2 = none := by
    decide +kernel
  obtain ⟨⟨hcall, hsucceeds, hpc, hempty⟩, ⟨hfamily, hkk, hsucceeds'⟩, hret, hn,
    hsucceeds''⟩ :=
    hwords
  have hcalled : calling.Footprint calling.fetch called := calling.step_footprint hsucceeds
  have hstored : called.Footprint called.fetch stored := called.step_footprint hsucceeds'
  have hreturned : stored.Footprint stored.fetch returned := stored.step_footprint hsucceeds''
  have hstack : stored.stack = called.stack :=
    hstored.stack (by rw [hfamily]; decide) (by rw [hfamily]; decide)
  have hwritten : called.fetch.written = [] := by
    simp only [Word.written, hfamily, hkk]
    rfl
  obtain ⟨hdepth, hslots⟩ := hcalled.call hcall
  obtain ⟨hback, hkept⟩ := hreturned.ret hret hn
  simp only [hempty, hpc] at hdepth hslots
  rw [hstack] at hback hkept
  refine ⟨⟨hdepth, (hslots 0).trans (if_pos rfl), fun k hk => (hslots k).trans (if_neg hk)⟩,
    ⟨hfamily, hkk, ?_, hstack, ?_⟩, ?_, ?_⟩
  · exact hstored.index (by rw [hfamily]; decide) fun h => absurd h.2 (by rw [hkk]; decide)
  · intro r
    exact hstored.registers r (by rw [hwritten]; exact List.not_mem_nil)
  · rw [hdepth] at hback
    exact Nat.succ.inj hback
  · exact hkept

end Machine

end Chip8
