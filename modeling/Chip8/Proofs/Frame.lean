import Chip8.Machine.Run

/-!
# Frames

What an instruction does to one part of the machine, over all instructions at once
(`execute_eq_effect`), and what an input does to it:

* `stack_execute`, `stack_handle`: only calls and returns touch the call stack;
* `screen_execute`, `screen_handle`: only clearing and drawing touch the screen;
* `memory_execute`, `memory_handle`: only programs, decimal digits and stored registers go
  to memory, each as one block (`block?`);
* `random_execute`, `random_handle`: only random registers use bytes up, one at a time;
* `keypad_step`: no step moves a key;
* `index_execute`: three instructions set the index;
* `delay_execute`, `sound_execute`: each timer is set by one instruction;
* `pc_execute`: the program counter goes on from the word but for jumps, calls, returns,
  skips and waits.

The `execute` forms are about a machine that is already past the word, the `handle` forms
about any input of a run; an input that carries nothing out is covered by
`handle_of_idle`. Where the result of an instruction is not a record on the face of it, it
is first brought into that form.
-/

namespace Chip8.Machine

/-! ## Results as records -/

theorem load_of_le (m : Machine) {program : List UInt8}
    (h : program.length ≤ Memory.programLimit) :
    m.load program
      = ({ m with memory := m.memory.writeBlock Memory.programStart program }, none) := by
  simp only [load, Memory.load, if_pos h]

theorem load_of_lt (m : Machine) {program : List UInt8}
    (h : Memory.programLimit < program.length) :
    m.load program = (m, some (.romTooLarge program.length Memory.programLimit)) := by
  simp only [load, Memory.load, if_neg (Nat.not_le.mpr h)]

theorem execute_ret (m : Machine) :
    (m.execute .ret).1 = { m with pc := m.stack.top?.getD m.pc, stack := m.stack.pop } := by
  show m.leave.1 = _
  cases hempty : m.stack.isEmpty with
  | true =>
    have htop : m.stack.top? = none := (CallStack.top?_eq_none_iff _).mpr hempty
    rw [leave_of_isEmpty hempty, htop, CallStack.pop_of_isEmpty hempty]
    rfl
  | false =>
    unfold leave
    split
    · rename_i address htop
      rw [htop]
      rfl
    · rename_i htop
      rw [CallStack.top?_eq_none_iff, hempty] at htop
      cases htop

theorem execute_call (m : Machine) (target : UInt16) :
    (m.execute (.call target)).1 =
      { m with
        pc := if m.stack.isFull then m.pc else target
        stack := m.stack.push m.pc } := by
  show (m.enter target).1 = _
  cases hfull : m.stack.isFull with
  | true =>
    rw [enter_of_isFull target hfull, CallStack.push_of_isFull m.pc hfull]
    rfl
  | false => simp [enter, hfull]

theorem execute_skip (m : Machine) (condition : Condition) :
    (m.execute (.skip condition)).1 =
      { m with pc := if m.meets condition then m.pc + 2 else m.pc } := by
  show (if m.meets condition then m.advance else m) = _
  split <;> rfl

theorem execute_compute (m : Machine) (operation : Arithmetic) (x y : Nibble) :
    (m.execute (.compute operation x y)).1 = { m with v := (m.compute operation x y).v } := by
  cases operation <;> rfl

/-- Clearing the flag first makes no difference to what is left in it. -/
theorem draw_eq (m : Machine) (x y height : Nibble) :
    let drawn := m.screen.draw (m.reg x) (m.reg y) (m.memory.readBlock m.index height.val)
    m.draw x y height
      = { m with v := m.v.update flag drawn.2.toUInt8, screen := drawn.1 } := by
  intro drawn
  rcases hdrawn : drawn with ⟨screen, collided⟩
  change m.screen.draw (m.reg x) (m.reg y) (m.memory.readBlock m.index height.val) = _
    at hdrawn
  simp only [draw, hdrawn]
  cases collided with
  | true =>
    show ({ m with v := (m.v.update flag _).update flag _, screen := screen } : Machine) = _
    rw [Bank.update_update]
  | false => rfl

theorem execute_draw (m : Machine) (x y height : Nibble) :
    (m.execute (.draw x y height)).1 =
      { m with v := (m.draw x y height).v, screen := (m.draw x y height).screen } := by
  show m.draw x y height = _
  rw [draw_eq]

theorem execute_awaitKey (m : Machine) (x : Nibble) :
    (m.execute (.awaitKey x)).1 =
      { m with v := (m.awaitKey x).v, pc := (m.awaitKey x).pc } := by
  show m.awaitKey x = _
  unfold awaitKey
  split <;> rfl

/-! ## All instructions at once -/

/-- What an instruction does besides what it does to the registers and to the two
addresses: it touches one part of the machine at most. A failing call or return is covered
too, since a full stack takes no address and an empty one gives none. -/
def effect (m : Machine) : Instruction → Machine
  | .clear => { m with screen := .blank }
  | .ret => { m with stack := m.stack.pop }
  | .call _ => { m with stack := m.stack.push m.pc }
  | .random _ _ => { m with random := m.random.skip 1 }
  | .draw x y height => { m with screen := (m.draw x y height).screen }
  | .setDelay x => { m with delay := m.reg x }
  | .setSound x => { m with sound := m.reg x }
  | .decimal x => { m with memory := m.memory.writeBlock m.index (decimalDigits (m.reg x)) }
  | .store last =>
      { m with memory := m.memory.writeBlock m.index (m.v.toList.take (last.val + 1)) }
  | _ => m

theorem execute_eq_effect (m : Machine) (instruction : Instruction) :
    (m.execute instruction).1 =
      { m.effect instruction with
        v := (m.execute instruction).1.v
        index := (m.execute instruction).1.index
        pc := (m.execute instruction).1.pc } := by
  cases instruction with
  | ret => rw [execute_ret]; rfl
  | call target => rw [execute_call]; rfl
  | skip condition => rw [execute_skip]; rfl
  | compute operation x y => rw [execute_compute]; rfl
  | draw x y height => rw [execute_draw]; rfl
  | awaitKey x => rw [execute_awaitKey]; rfl
  | _ => rfl

/-! ## The call stack -/

theorem stack_execute (m : Machine) (instruction : Instruction) :
    (m.execute instruction).1.stack =
      match instruction with
      | .ret => m.stack.pop
      | .call _ => m.stack.push m.pc
      | _ => m.stack := by
  rw [execute_eq_effect]
  cases instruction <;> rfl

theorem stack_handle (m : Machine) (input : Input) :
    (m.handle input).1.stack =
      match m.performed? input with
      | some .ret => m.stack.pop
      | some (.call _) => m.stack.push (m.pc + 2)
      | _ => m.stack := by
  cases hperformed : m.performed? input with
  | none => rw [handle_of_idle hperformed]
  | some instruction =>
    obtain ⟨-, -, hhandle⟩ := handle_of_performed hperformed
    rw [hhandle]
    show (m.advance.execute instruction).1.stack = _
    rw [stack_execute]
    cases instruction <;> rfl

/-! ## The screen -/

theorem screen_execute (m : Machine) (instruction : Instruction) :
    (m.execute instruction).1.screen =
      match instruction with
      | .clear => .blank
      | .draw x y height => (m.draw x y height).screen
      | _ => m.screen := by
  rw [execute_eq_effect]
  cases instruction <;> rfl

/-- A sprite is drawn from what the registers, the index and memory hold when its word is
fetched. -/
theorem screen_handle (m : Machine) (input : Input) :
    (m.handle input).1.screen =
      match m.performed? input with
      | some .clear => .blank
      | some (.draw x y height) => (m.draw x y height).screen
      | _ => m.screen := by
  cases hperformed : m.performed? input with
  | none => rw [handle_of_idle hperformed]
  | some instruction =>
    obtain ⟨-, -, hhandle⟩ := handle_of_performed hperformed
    rw [hhandle]
    show (m.advance.execute instruction).1.screen = _
    rw [screen_execute]
    cases instruction with
    | draw x y height =>
      show (m.advance.draw x y height).screen = (m.draw x y height).screen
      rw [draw_eq, draw_eq]
      rfl
    | _ => rfl

/-! ## Memory -/

theorem memory_execute (m : Machine) (instruction : Instruction) :
    (m.execute instruction).1.memory =
      match instruction with
      | .decimal x => m.memory.writeBlock m.index (decimalDigits (m.reg x))
      | .store last => m.memory.writeBlock m.index (m.v.toList.take (last.val + 1))
      | _ => m.memory := by
  rw [execute_eq_effect]
  cases instruction <;> rfl

/-- What an input puts into memory, with the address of its first byte. -/
def block? (m : Machine) (input : Input) : Option (UInt16 × List UInt8) :=
  match input with
  | .load program =>
    if program.length ≤ Memory.programLimit then some (Memory.programStart, program) else none
  | input =>
    match m.performed? input with
    | some (.decimal x) => some (m.index, decimalDigits (m.reg x))
    | some (.store last) => some (m.index, m.v.toList.take (last.val + 1))
    | _ => none

theorem memory_handle (m : Machine) (input : Input) :
    (m.handle input).1.memory =
      match m.block? input with
      | some (base, block) => m.memory.writeBlock base block
      | none => m.memory := by
  cases input with
  | load program =>
    simp only [handle, block?]
    by_cases hfits : program.length ≤ Memory.programLimit
    · rw [m.load_of_le hfits, if_pos hfits]
    · rw [m.load_of_lt (Nat.not_le.mp hfits), if_neg hfits]
  | setKey key down => rfl
  | setKeys keys => rfl
  | step =>
    cases hnext : m.next with
    | error e =>
      have hperformed : m.performed? .step = none := by simp [performed?, step_of_error hnext]
      rw [block?, hperformed]
      · simp only [handle, step_of_error hnext]
        rfl
      · simp
    | ok instruction =>
      have hperformed := performed?_step_eq_some_iff.mpr hnext
      rw [block?, hperformed]
      · show (m.step).1.memory = _
        rw [step_of_ok hnext]
        show (m.advance.execute instruction).1.memory = _
        rw [memory_execute]
        cases instruction <;> rfl
      · simp

/-! ## Random bytes -/

theorem random_execute (m : Machine) (instruction : Instruction) :
    (m.execute instruction).1.random =
      match instruction with
      | .random _ _ => m.random.skip 1
      | _ => m.random := by
  rw [execute_eq_effect]
  cases instruction <;> rfl

theorem random_handle (m : Machine) (input : Input) :
    (m.handle input).1.random =
      match m.performed? input with
      | some (.random _ _) => m.random.skip 1
      | _ => m.random := by
  cases hperformed : m.performed? input with
  | none => rw [handle_of_idle hperformed]
  | some instruction =>
    obtain ⟨-, -, hhandle⟩ := handle_of_performed hperformed
    rw [hhandle]
    show (m.advance.execute instruction).1.random = _
    rw [random_execute]
    cases instruction <;> rfl

/-! ## The keys -/

theorem keypad_execute (m : Machine) (instruction : Instruction) :
    (m.execute instruction).1.keypad = m.keypad := by
  rw [execute_eq_effect]
  cases instruction <;> rfl

/-- A program cannot move a key, whether its step succeeds or fails. -/
theorem keypad_step (m : Machine) : m.step.1.keypad = m.keypad := by
  cases hnext : m.next with
  | ok instruction =>
    rw [step_of_ok hnext]
    exact keypad_execute m.advance instruction
  | error e =>
    rw [step_of_error hnext]
    rfl

theorem keypad_load (m : Machine) (program : List UInt8) :
    (m.load program).1.keypad = m.keypad := by
  by_cases hfits : program.length ≤ Memory.programLimit
  · rw [m.load_of_le hfits]
  · rw [m.load_of_lt (Nat.not_le.mp hfits)]

/-! ## The index -/

theorem index_execute (m : Machine) (instruction : Instruction) :
    (m.execute instruction).1.index =
      match instruction with
      | .setIndex address => address
      | .addIndex x => m.index + (m.reg x).toUInt16
      | .glyph x => Memory.fontStart + Memory.glyphSize * (m.reg x).toUInt16
      | _ => m.index := by
  cases instruction with
  | ret => rw [execute_ret]
  | call target => rw [execute_call]
  | skip condition => rw [execute_skip]
  | compute operation x y => rw [execute_compute]
  | draw x y height => rw [execute_draw]
  | awaitKey x => rw [execute_awaitKey]
  | _ => rfl

/-! ## The timers -/

theorem delay_execute (m : Machine) (instruction : Instruction) :
    (m.execute instruction).1.delay =
      match instruction with
      | .setDelay x => m.reg x
      | _ => m.delay := by
  rw [execute_eq_effect]
  cases instruction <;> rfl

theorem sound_execute (m : Machine) (instruction : Instruction) :
    (m.execute instruction).1.sound =
      match instruction with
      | .setSound x => m.reg x
      | _ => m.sound := by
  rw [execute_eq_effect]
  cases instruction <;> rfl

/-! ## The program counter -/

/-- A call or a return that fails stays where it is. -/
theorem pc_execute (m : Machine) (instruction : Instruction) :
    (m.execute instruction).1.pc =
      match instruction with
      | .ret => m.stack.top?.getD m.pc
      | .jump target => target
      | .call target => if m.stack.isFull then m.pc else target
      | .skip condition => if m.meets condition then m.pc + 2 else m.pc
      | .jumpFrom base => (m.reg (.ofNat 0)).toUInt16 + base
      | .awaitKey _ => if m.keypad.lowest?.isSome then m.pc else m.pc - 2
      | _ => m.pc := by
  cases instruction with
  | ret => rw [execute_ret]
  | call target => rw [execute_call]
  | skip condition => rw [execute_skip]
  | compute operation x y => rw [execute_compute]
  | draw x y height => rw [execute_draw]
  | awaitKey x =>
    show (m.awaitKey x).pc = _
    unfold awaitKey
    cases m.keypad.lowest? with
    | none => rfl
    | some key => rfl
  | _ => rfl

end Chip8.Machine
