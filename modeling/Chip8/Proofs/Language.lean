import Chip8.Proofs.FailedStep

/-!
# The words that can be carried out

Whether a step succeeds is told by the number of its word and the height of the call
stack. Words are told apart by their first digit, and then at most by their last digit or
their low byte (`Word.Unassigned` are those that stand for nothing). Besides, a call needs
a free slot and a return needs a call (`step_error_iff`). Registers, timers, keys, screen
and random bytes have no part in it.
-/

namespace Chip8

namespace Word

/-- The words, by their numbers, that stand for no instruction. -/
def Unassigned (word : Nat) : Prop :=
  (word / 4096 = 0x0 ∧ word % 16 ∉ [0x0, 0xE])
    ∨ (word / 4096 = 0x8 ∧ word % 16 ∉ [0x0, 0x1, 0x2, 0x3, 0x4, 0x5, 0x6, 0x7, 0xE])
    ∨ (word / 4096 = 0xE ∧ word % 16 ∉ [0x1, 0xE])
    ∨ (word / 4096 = 0xF
      ∧ word % 256 ∉ [0x07, 0x0A, 0x15, 0x18, 0x1E, 0x29, 0x33, 0x55, 0x65])

/-- The words that call, with the height of a stack that has no slot for them. -/
def Overflows (word depth : Nat) : Prop := word / 4096 = 0x2 ∧ depth = 16

/-- The words that return, with the height of a stack that has no call for them. -/
def Underflows (word depth : Nat) : Prop := word / 4096 = 0x0 ∧ word % 16 = 0xE ∧ depth = 0

/-- Words of a family that is not told apart by its low byte are told apart by their last
digit, or not at all. -/
theorem unassigned_congr {word word' : Nat} (hfamily : word' / 4096 = word / 4096)
    (hlast : word' % 16 = word % 16) (hF : word / 4096 ≠ 0xF) :
    Unassigned word' ↔ Unassigned word := by
  simp only [Unassigned, hfamily, hlast, hF, false_and]

end Word

namespace Instruction

theorem decode?_eq_none_iff_unassigned (w : Word) :
    decode? w = none ↔ Word.Unassigned w.bits.toNat := by
  rw [decode?_eq_none_iff, Word.Unassigned]
  simp only [Word.family_eq_iff, Word.n_eq_iff, Word.kk_eq_iff, List.mem_cons,
    List.not_mem_nil]
  rfl

end Instruction

namespace Machine

/-! ## Steps -/

/-- The error of a step: its word is no instruction, or the instruction has a fault. -/
theorem error_step (m : Machine) :
    m.step.2 =
      match Instruction.decode? m.fetch with
      | none => some (.invalidInstruction m.fetch m.pc)
      | some instruction => m.fault? instruction := by
  cases hdecode : Instruction.decode? m.fetch with
  | none =>
    have hnext : m.next = .error (.invalidInstruction m.fetch m.pc) := by rw [next, hdecode]
    rw [step_of_error hnext]
  | some instruction =>
    cases hfault : m.fault? instruction with
    | none =>
      rw [step_of_ok (next_eq_ok_iff.mpr ⟨hdecode, hfault⟩)]
      exact hfault.symm
    | some e =>
      have hnext : m.next = .error e := by simp only [next, hdecode, hfault]
      rw [step_of_error hnext]
      exact hfault.symm

theorem error_step_eq_invalid_iff (m : Machine) :
    (∃ w a, m.step.2 = some (.invalidInstruction w a))
      ↔ Word.Unassigned m.fetch.bits.toNat := by
  rw [← Instruction.decode?_eq_none_iff_unassigned, error_step]
  cases Instruction.decode? m.fetch with
  | none => simp
  | some instruction =>
    -- an instruction has no fault but those of the call stack
    cases instruction <;> simp [fault?]

theorem error_step_eq_overflow_iff (m : Machine) :
    (∃ a, m.step.2 = some (.stackOverflow a))
      ↔ Word.Overflows m.fetch.bits.toNat m.stack.depth.val := by
  have hcall : (∃ target, Instruction.decode? m.fetch = some (.call target))
      ↔ m.fetch.bits.toNat / 4096 = 0x2 := by
    simp only [Instruction.decode?_eq_call_iff, Word.family_eq_iff, exists_and_left,
      exists_eq]
    simp
  have hfull : m.stack.isFull = true ↔ m.stack.depth.val = 16 := by simp [CallStack.isFull]
  rw [Word.Overflows, ← hcall, ← hfull, error_step]
  cases Instruction.decode? m.fetch with
  | none => simp
  | some instruction => cases instruction <;> simp [fault?]

theorem error_step_eq_underflow_iff (m : Machine) :
    (∃ a, m.step.2 = some (.stackUnderflow a))
      ↔ Word.Underflows m.fetch.bits.toNat m.stack.depth.val := by
  have hret : Instruction.decode? m.fetch = some .ret
      ↔ m.fetch.bits.toNat / 4096 = 0x0 ∧ m.fetch.bits.toNat % 16 = 0xE := by
    rw [Instruction.decode?_eq_ret_iff, Word.family_eq_iff, Word.n_eq_iff]
    rfl
  have hempty : m.stack.isEmpty = true ↔ m.stack.depth.val = 0 := by simp [CallStack.isEmpty]
  rw [Word.Underflows, ← and_assoc, ← hret, ← hempty, error_step]
  cases Instruction.decode? m.fetch with
  | none => simp
  | some instruction => cases instruction <;> simp [fault?]

/-- A step has no errors but these three. -/
theorem error_step_eq_none_iff (m : Machine) :
    m.step.2 = none
      ↔ ¬ Word.Unassigned m.fetch.bits.toNat
        ∧ ¬ Word.Overflows m.fetch.bits.toNat m.stack.depth.val
        ∧ ¬ Word.Underflows m.fetch.bits.toNat m.stack.depth.val := by
  rw [← error_step_eq_invalid_iff, ← error_step_eq_overflow_iff,
    ← error_step_eq_underflow_iff]
  constructor
  · intro h
    simp [h]
  · rintro ⟨hinvalid, hoverflow, hunderflow⟩
    rw [Option.eq_none_iff_forall_ne_some]
    intro e he
    rcases error_cases (error_step_iff.mp he) with rfl | rfl | rfl
    · exact hinvalid ⟨_, _, he⟩
    · exact hoverflow ⟨_, he⟩
    · exact hunderflow ⟨_, he⟩

/-- The number of the word at the program counter, high byte first. Memory reads both of
its addresses modulo 4096 (`bits_fetch`). -/
def wordNumber (m : Machine) : Nat :=
  (m.memory.read m.pc).toNat * 256 + (m.memory.read (m.pc + 1)).toNat

/-- **The language of the machine.** A step fails on the words that are not assigned, on a
call with all slots taken and on a return without a call, with the error that says so, and
succeeds on all others. So nothing counts but the word and the height of the call stack,
and of a word that begins with 0, 5, 8, 9 or E the digits in the middle do not count
either. -/
theorem step_error_iff (m : Machine) :
    ((∃ w a, m.step.2 = some (.invalidInstruction w a)) ↔ Word.Unassigned m.wordNumber)
      ∧ ((∃ a, m.step.2 = some (.stackOverflow a))
        ↔ Word.Overflows m.wordNumber m.stack.depth.val)
      ∧ ((∃ a, m.step.2 = some (.stackUnderflow a))
        ↔ Word.Underflows m.wordNumber m.stack.depth.val)
      ∧ (m.step.2 = none
        ↔ ¬ Word.Unassigned m.wordNumber
          ∧ ¬ Word.Overflows m.wordNumber m.stack.depth.val
          ∧ ¬ Word.Underflows m.wordNumber m.stack.depth.val)
      ∧ ∀ m' : Machine, m'.stack.depth = m.stack.depth →
        (m'.wordNumber = m.wordNumber
          ∨ (m'.wordNumber / 4096 = m.wordNumber / 4096
            ∧ m'.wordNumber % 16 = m.wordNumber % 16
            ∧ m.wordNumber / 4096 ∈ [0x0, 0x5, 0x8, 0x9, 0xE])) →
        (m'.step.2 = none ↔ m.step.2 = none) := by
  have hnumber (m : Machine) : m.wordNumber = m.fetch.bits.toNat :=
    (Word.toNat_bits_ofBytes _ _).symm
  simp only [hnumber]
  refine ⟨m.error_step_eq_invalid_iff, m.error_step_eq_overflow_iff,
    m.error_step_eq_underflow_iff, m.error_step_eq_none_iff, ?_⟩
  intro m' hdepth hword
  rw [error_step_eq_none_iff, error_step_eq_none_iff, hdepth]
  rcases hword with hsame | ⟨hfamily, hlast, hmiddle⟩
  · rw [hsame]
  · have hF : m.fetch.bits.toNat / 4096 ≠ 0xF := by
      intro h
      rw [h] at hmiddle
      exact absurd hmiddle (by decide)
    rw [Word.unassigned_congr hfamily hlast hF, Word.Overflows, Word.Overflows,
      Word.Underflows, Word.Underflows, hfamily, hlast]

/-- Two words that return, one of them with idle digits in the middle, on a stack without
a call. -/
theorem step_error_iff_of_returns :
    let m : Machine := (fresh (.cycle #[])).run [.load [0x00, 0xEE]]
    let m' : Machine := { (fresh (.cycle #[])).run [.load [0x05, 0x5E]] with delay := 7 }
    m'.stack.depth = m.stack.depth ∧ (m'.step.2 = none ↔ m.step.2 = none)
      ∧ ∃ a, m.step.2 = some (.stackUnderflow a) := by
  intro m m'
  have hnumber : m.wordNumber = 0x00EE := by decide +kernel
  have hnumber' : m'.wordNumber = 0x055E := by decide +kernel
  obtain ⟨-, -, hunderflow, -, hcongr⟩ := step_error_iff m
  rw [hnumber] at hunderflow hcongr
  refine ⟨rfl, hcongr m' rfl (.inr ?_), hunderflow.mpr ⟨rfl, rfl, rfl⟩⟩
  rw [hnumber']
  decide

end Machine

end Chip8
