import Chip8.Machine.Execute

/-!
# Steps

A step takes the word at the program counter, moves past it, carries it out and counts the
timers down. If that fails the timers stay as they are.

`next` tells beforehand what a step will do. A step that fails has done nothing but move
past its word (`step_of_error`).
-/

namespace Chip8.Machine

/-- The word at the program counter, the more significant byte first. -/
def fetch (m : Machine) : Word := .ofBytes (m.memory.read m.pc) (m.memory.read (m.pc + 1))

/-- Carries out a word that the program counter is already past, and gives its error if it
failed.
-/
def dispatch (m : Machine) (w : Word) : Machine × Option Error :=
  match Instruction.decode? w with
  | some instruction => m.execute instruction
  | none => (m, some (.invalidInstruction w m.fetchedAt))

/-- One step, and its error if it failed. -/
def step (m : Machine) : Machine × Option Error :=
  match m.advance.dispatch m.fetch with
  | (after, none) => (after.tick, none)
  -- no time passes in a step that fails
  | (after, some e) => (after, some e)

/-! ## What a step will do -/

/-- Why an instruction at the program counter cannot be carried out: a return needs a call
to go back to, and a call needs a slot that is free. -/
def fault? (m : Machine) : Instruction → Option Error
  | .ret => if m.stack.isEmpty then some (.stackUnderflow m.pc) else none
  | .call _ => if m.stack.isFull then some (.stackOverflow m.pc) else none
  | _ => none

/-- The instruction that the next step carries out, or why there is none. -/
def next (m : Machine) : Except Error Instruction :=
  match Instruction.decode? m.fetch with
  | none => .error (.invalidInstruction m.fetch m.pc)
  | some instruction =>
    match m.fault? instruction with
    | some e => .error e
    | none => .ok instruction

/-- Moving past a word does not lose its address, also at the end of the address space. -/
@[simp]
theorem fetchedAt_advance (m : Machine) : m.advance.fetchedAt = m.pc := by
  show m.pc + 2 - 2 = m.pc
  exact UInt16.add_sub_cancel m.pc 2

/-- A fault shows as an error that has changed nothing. -/
theorem execute_of_fault {m : Machine} {instruction : Instruction} {e : Error}
    (h : m.fault? instruction = some e) :
    m.advance.execute instruction = (m.advance, some e) := by
  cases instruction with
  | ret =>
    simp only [fault?, Option.ite_none_right_eq_some, Option.some.injEq] at h
    obtain ⟨hempty, rfl⟩ := h
    rw [← fetchedAt_advance]
    exact leave_of_isEmpty (m := m.advance) hempty
  | call target =>
    simp only [fault?, Option.ite_none_right_eq_some, Option.some.injEq] at h
    obtain ⟨hfull, rfl⟩ := h
    rw [← fetchedAt_advance]
    exact enter_of_isFull (m := m.advance) target hfull
  | _ => cases h

/-- Without a fault an instruction succeeds. -/
theorem execute_of_no_fault {m : Machine} {instruction : Instruction}
    (h : m.fault? instruction = none) : (m.advance.execute instruction).2 = none := by
  cases instruction with
  | ret =>
    simp only [fault?, ite_eq_right_iff, reduceCtorEq, imp_false, Bool.not_eq_true] at h
    exact error_leave (m := m.advance) h
  | call target =>
    simp only [fault?, ite_eq_right_iff, reduceCtorEq, imp_false, Bool.not_eq_true] at h
    exact error_enter (m := m.advance) target h
  | _ => rfl

theorem next_eq_ok_iff {m : Machine} {instruction : Instruction} :
    m.next = .ok instruction
      ↔ Instruction.decode? m.fetch = some instruction ∧ m.fault? instruction = none := by
  unfold next
  constructor
  · intro h
    split at h
    · cases h
    · rename_i hdecode
      split at h
      · cases h
      · rename_i hfault
        cases h
        exact ⟨hdecode, hfault⟩
  · rintro ⟨hdecode, hfault⟩
    simp only [hdecode, hfault]

theorem step_of_ok {m : Machine} {instruction : Instruction} (h : m.next = .ok instruction) :
    m.step = ((m.advance.execute instruction).1.tick, none) := by
  obtain ⟨hdecode, hfault⟩ := next_eq_ok_iff.mp h
  have hdispatch : m.advance.dispatch m.fetch
      = ((m.advance.execute instruction).1, none) := by
    rw [dispatch, hdecode]
    exact Prod.ext rfl (execute_of_no_fault hfault)
  rw [step, hdispatch]

/-- A step that fails only moves past its word. -/
theorem step_of_error {m : Machine} {e : Error} (h : m.next = .error e) :
    m.step = (m.advance, some e) := by
  unfold next at h
  split at h
  · rename_i hdecode
    cases h
    rw [step, dispatch, hdecode, fetchedAt_advance]
  · rename_i instruction hdecode
    split at h
    · rename_i hfault
      cases h
      rw [step, dispatch, hdecode]
      show (match m.advance.execute instruction with
        | (after, none) => (after.tick, none)
        | (after, some e) => (after, some e)) = _
      rw [execute_of_fault hfault]
    · cases h

/-- The error of a step is the one that shows beforehand. -/
theorem error_step_iff {m : Machine} {e : Error} : m.step.2 = some e ↔ m.next = .error e := by
  cases h : m.next with
  | ok instruction => simp [step_of_ok h]
  | error e' => simp [step_of_error h]

theorem error_step_eq_none_iff_next {m : Machine} :
    m.step.2 = none ↔ ∃ instruction, m.next = .ok instruction := by
  cases h : m.next with
  | ok instruction => simp [step_of_ok h]
  | error e => simp [step_of_error h]

/-- A step fails on a word that is no instruction, or else it is a call or a return. -/
theorem error_cases {m : Machine} {e : Error} (h : m.next = .error e) :
    e = .invalidInstruction m.fetch m.pc ∨ e = .stackOverflow m.pc
      ∨ e = .stackUnderflow m.pc := by
  unfold next at h
  split at h
  · cases h
    exact .inl rfl
  · rename_i instruction _
    split at h
    · rename_i hfault
      cases h
      cases instruction with
      | ret =>
        simp only [fault?, Option.ite_none_right_eq_some, Option.some.injEq] at hfault
        exact .inr (.inr hfault.2.symm)
      | call target =>
        simp only [fault?, Option.ite_none_right_eq_some, Option.some.injEq] at hfault
        exact .inr (.inl hfault.2.symm)
      | _ => cases hfault
    · cases h

end Chip8.Machine
