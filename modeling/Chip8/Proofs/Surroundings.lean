import Chip8.Proofs.Frame

/-!
# What a machine learns from outside

The keys and the random bytes of a machine are told by its surroundings; everything else
in it is its own doing. A program asks the surroundings in three ways: a skip asks for one
key, a wait for the lowest key that is down, and a random register for the next byte
(`Surroundings.Answers`). A machine does the same in other surroundings (`amid`) for as
long as they answer the same: `execute_amid` is one instruction, `handle_amid` one program
or step.
-/

namespace Chip8

/-- What the surroundings tell a machine. -/
structure Surroundings where
  keypad : Keypad
  random : RandomBytes

namespace Input

/-- Whether an input is about keys. -/
def movesKeys : Input → Bool
  | .setKey _ _ | .setKeys _ => true
  | .load _ | .step => false

end Input

namespace Surroundings

/-- These surroundings answer an instruction as those of the machine do. -/
def Answers (s : Surroundings) (m : Machine) : Instruction → Prop
  | .skip (.keyDown x) | .skip (.keyUp x) =>
    s.keypad.isDown (m.reg x) = m.keypad.isDown (m.reg x)
  | .awaitKey _ => s.keypad.lowest? = m.keypad.lowest?
  | .random _ _ => s.random.peek = m.random.peek
  | _ => True

/-- The surroundings after an instruction, if one is carried out: a random byte is used up. -/
def after (s : Surroundings) : Option Instruction → Surroundings
  | some (.random _ _) => { s with random := s.random.skip 1 }
  | _ => s

end Surroundings

namespace Machine

variable {m : Machine} {s : Surroundings}

/-- The same machine in other surroundings. -/
def amid (m : Machine) (s : Surroundings) : Machine :=
  { m with keypad := s.keypad, random := s.random }

/-! ## One instruction -/

theorem meets_amid {condition : Condition} (h : s.Answers m (.skip condition)) :
    (m.amid s).meets condition = m.meets condition := by
  cases condition with
  | keyDown x => exact h
  | keyUp x => exact congrArg not h
  | _ => rfl

theorem leave_amid (m : Machine) (s : Surroundings) :
    (m.amid s).leave = (m.leave.1.amid s, m.leave.2) := by
  have htop : (m.amid s).stack.top? = m.stack.top? := rfl
  unfold leave
  rw [htop]
  split <;> rfl

theorem enter_amid (m : Machine) (s : Surroundings) (target : UInt16) :
    (m.amid s).enter target = ((m.enter target).1.amid s, (m.enter target).2) := by
  have hfull : (m.amid s).stack.isFull = m.stack.isFull := rfl
  unfold enter
  rw [hfull]
  split <;> rfl

theorem compute_amid (m : Machine) (s : Surroundings) (operation : Arithmetic)
    (x y : Nibble) :
    (m.amid s).compute operation x y = (m.compute operation x y).amid s := by
  cases operation <;> rfl

theorem draw_amid (m : Machine) (s : Surroundings) (x y height : Nibble) :
    (m.amid s).draw x y height = (m.draw x y height).amid s := by
  rw [draw_eq, draw_eq]
  rfl

theorem awaitKey_amid {x : Nibble} (h : s.keypad.lowest? = m.keypad.lowest?) :
    (m.amid s).awaitKey x = (m.awaitKey x).amid s := by
  have hlowest : (m.amid s).keypad.lowest? = m.keypad.lowest? := h
  unfold awaitKey
  rw [hlowest]
  split <;> rfl

/-- An instruction does the same in surroundings that answer it the same. -/
theorem execute_amid {instruction : Instruction} (h : s.Answers m instruction) :
    (m.amid s).execute instruction
      = ((m.execute instruction).1.amid (s.after (some instruction)),
        (m.execute instruction).2) := by
  cases instruction with
  | ret => exact leave_amid m s
  | call target => exact enter_amid m s target
  | skip condition =>
    simp only [execute, meets_amid h]
    split <;> rfl
  | compute operation x y => exact Prod.ext (compute_amid m s operation x y) rfl
  | random x mask =>
    have hpeek : (m.amid s).random.peek = m.random.peek := h
    simp only [execute, hpeek]
    rfl
  | draw x y height => exact Prod.ext (draw_amid m s x y height) rfl
  | awaitKey x => exact Prod.ext (awaitKey_amid h) rfl
  | _ => rfl

/-! ## One input -/

/-- What is to be carried out does not depend on the surroundings. -/
theorem next_amid (m : Machine) (s : Surroundings) : (m.amid s).next = m.next := by
  have hfetch : (m.amid s).fetch = m.fetch := rfl
  have hfault (instruction : Instruction) :
      (m.amid s).fault? instruction = m.fault? instruction := by
    cases instruction <;> rfl
  simp only [next, hfetch, hfault]
  rfl

theorem step_amid
    (h : ∀ instruction, m.performed? .step = some instruction → s.Answers m instruction) :
    (m.amid s).step = (m.step.1.amid (s.after (m.performed? .step)), m.step.2) := by
  have hnext' := next_amid m s
  cases hnext : m.next with
  | ok instruction =>
    have hperformed := performed?_step_eq_some_iff.mpr hnext
    have hexecute := execute_amid (m := m.advance) (h instruction hperformed)
    have hadvance : (m.amid s).advance = m.advance.amid s := rfl
    rw [hperformed, step_of_ok hnext, step_of_ok (hnext'.trans hnext), hadvance, hexecute]
    rfl
  | error e =>
    have hperformed : m.performed? .step = none := by simp [performed?, step_of_error hnext]
    rw [hperformed, step_of_error hnext, step_of_error (hnext'.trans hnext)]
    rfl

theorem load_amid (m : Machine) (s : Surroundings) (program : List UInt8) :
    (m.amid s).load program = ((m.load program).1.amid s, (m.load program).2) := by
  by_cases hfits : program.length ≤ Memory.programLimit
  · rw [load_of_le _ hfits, load_of_le _ hfits]
    rfl
  · rw [load_of_lt _ (Nat.not_le.mp hfits), load_of_lt _ (Nat.not_le.mp hfits)]

theorem keypad_handle {input : Input} (hkeys : input.movesKeys = false) :
    (m.handle input).1.keypad = m.keypad := by
  cases input with
  | load program => exact keypad_load m program
  | setKey key down => cases hkeys
  | setKeys keys => cases hkeys
  | step => exact keypad_step m

/-- A program or a step does the same in surroundings that answer the same. -/
theorem handle_amid {input : Input} (hkeys : input.movesKeys = false)
    (h : ∀ instruction, m.performed? input = some instruction → s.Answers m instruction) :
    (m.amid s).handle input
      = ((m.handle input).1.amid (s.after (m.performed? input)), (m.handle input).2) := by
  cases input with
  | load program => exact load_amid m s program
  | setKey key down => cases hkeys
  | setKeys keys => cases hkeys
  | step => exact step_amid h

end Machine

end Chip8
