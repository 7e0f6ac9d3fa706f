import Chip8.Log
import Chip8.Machine.Step

/-!
# Runs

A machine reacts to inputs: programs, keys and steps. A run is what becomes of it over a
list of inputs, whatever of them fail. `history` lists the state before each input of a
run. A `Recorder` is a machine together with those of its records that a filter shows; it
runs as the machine does (`machine_handle`) and its log grows by the records of each input
(`log_handle`).
-/

namespace Chip8

/-- What can happen to a machine. -/
inductive Input where
  /-- A program is loaded. -/
  | load (program : List UInt8)
  /-- A key goes down or up. -/
  | setKey (key : UInt8) (down : Bool)
  /-- All keys are set. -/
  | setKeys (keys : Bank Bool)
  /-- A step is tried. -/
  | step

/-- Whether an input tries a step. -/
def Input.isStep : Input → Bool
  | .step => true
  | _ => false

namespace Machine

/-- What becomes of a machine, and the error if the input failed. -/
def handle (m : Machine) : Input → Machine × Option Error
  | .load program => m.load program
  | .setKey key down => (m.setKey key down, none)
  | .setKeys keys => (m.setKeys keys, none)
  | .step => m.step

/-- What becomes of a machine over some inputs, going on after those that fail. -/
def run (m : Machine) : List Input → Machine
  | [] => m
  | input :: rest => (m.handle input).1.run rest

/-- The inputs of a run, each with the machine it met. -/
def history (m : Machine) : List Input → List (Machine × Input)
  | [] => []
  | input :: rest => (m, input) :: (m.handle input).1.history rest

/-- What each input of a run leads to: the machine after it, and the error if it failed. -/
def outcomes (m : Machine) : List Input → List (Machine × Option Error)
  | [] => []
  | input :: rest => m.handle input :: (m.handle input).1.outcomes rest

/-- The instruction that an input carries out, if it is a step and succeeds. -/
def performed? (m : Machine) : Input → Option Instruction
  | .step =>
    match m.step.2 with
    | none => Instruction.decode? m.fetch
    | some _ => none
  | _ => none

/-- The records sent for an input, in order. -/
def records (m : Machine) (input : Input) : List Record :=
  match input, (m.handle input).2 with
  | .load program, none => [.loaded program.length]
  | .step, none => [.executing m.pc m.fetch]
  | .step, some e => [.executing m.pc m.fetch, .failed e]
  | _, _ => []

theorem run_append (m : Machine) (first second : List Input) :
    m.run (first ++ second) = (m.run first).run second := by
  induction first generalizing m with
  | nil => rfl
  | cons input rest ih => exact ih _

theorem history_append (m : Machine) (first second : List Input) :
    m.history (first ++ second) = m.history first ++ (m.run first).history second := by
  induction first generalizing m with
  | nil => rfl
  | cons input rest ih => exact congrArg _ (ih _)

theorem outcomes_append (m : Machine) (first second : List Input) :
    m.outcomes (first ++ second) = m.outcomes first ++ (m.run first).outcomes second := by
  induction first generalizing m with
  | nil => rfl
  | cons input rest ih => exact congrArg _ (ih _)

theorem performed?_step_eq_some_iff {m : Machine} {instruction : Instruction} :
    m.performed? .step = some instruction ↔ m.next = .ok instruction := by
  cases h : m.next with
  | ok instruction' =>
    have hdecode := (next_eq_ok_iff.mp h).1
    simp [performed?, step_of_ok h, hdecode]
  | error e => simp [performed?, step_of_error h]

/-- The words of family F have no fault. -/
theorem performed?_step_iff_of_coded {m : Machine} {instruction : Instruction} {x : Nibble}
    {kk : UInt8} (h : instruction.coded? = some (x, kk)) :
    m.performed? .step = some instruction
      ↔ m.fetch.family = 0xF ∧ m.fetch.kk = kk ∧ x = m.fetch.x := by
  have hfault : m.fault? instruction = none := by
    cases instruction with
    | ret => cases h
    | call target => cases h
    | _ => rfl
  rw [performed?_step_eq_some_iff, next_eq_ok_iff, Instruction.decode?_eq_some_iff_of_coded h]
  simp only [hfault, and_true]

theorem handle_of_performed {m : Machine} {input : Input} {instruction : Instruction}
    (h : m.performed? input = some instruction) :
    input = .step ∧ m.next = .ok instruction
      ∧ m.handle input = ((m.advance.execute instruction).1.tick, none) := by
  cases input with
  | step =>
    have hnext := performed?_step_eq_some_iff.mp h
    exact ⟨rfl, hnext, step_of_ok hnext⟩
  | _ => cases h

theorem error_step_of_performed {m : Machine} {instruction : Instruction}
    (h : m.performed? .step = some instruction) : m.step.2 = none :=
  congrArg Prod.snd (handle_of_performed h).2.2

/-- An input that carries no instruction out changes nothing but the program counter,
memory and keys: it is a failed step, a program or a key. -/
theorem handle_of_idle {m : Machine} {input : Input} (h : m.performed? input = none) :
    (m.handle input).1
      = { m with
          pc := (m.handle input).1.pc
          memory := (m.handle input).1.memory
          keypad := (m.handle input).1.keypad } := by
  cases input with
  | load program =>
    simp only [handle, load]
    split <;> rfl
  | setKey key down => rfl
  | setKeys keys => rfl
  | step =>
    cases hnext : m.next with
    | ok instruction =>
      rw [performed?_step_eq_some_iff.mpr hnext] at h
      cases h
    | error e =>
      simp only [handle, step_of_error hnext]
      rfl

end Machine

/-- A machine and those of the records it has sent that a filter shows. -/
structure Recorder where
  machine : Machine
  filter : LogFilter := .all
  log : Array Record := #[]

namespace Recorder

/-- Puts a program into memory. -/
def load (r : Recorder) (program : List UInt8) : Recorder × Option Error :=
  match r with
  | ⟨machine, filter, log⟩ =>
    match machine.load program with
    | (machine, none) => (⟨machine, filter, filter.note log (.loaded program.length)⟩, none)
    | (machine, some e) => (⟨machine, filter, log⟩, some e)

/-- Tries one step. -/
def step (r : Recorder) : Recorder × Option Error :=
  match r with
  | ⟨machine, filter, log⟩ =>
    let log := filter.note log (.executing machine.pc machine.fetch)
    match machine.step with
    | (machine, none) => (⟨machine, filter, log⟩, none)
    | (machine, some e) => (⟨machine, filter, filter.note log (.failed e)⟩, some e)

/-- Changes the machine without a record. -/
def modify (r : Recorder) (change : Machine → Machine) : Recorder :=
  match r with
  | ⟨machine, filter, log⟩ => ⟨change machine, filter, log⟩

/-- What becomes of a machine and its log, and the error if the input failed. -/
def handle (r : Recorder) : Input → Recorder × Option Error
  | .load program => r.load program
  | .setKey key down => (r.modify (·.setKey key down), none)
  | .setKeys keys => (r.modify (·.setKeys keys), none)
  | .step => r.step

/-- What becomes of a machine and its log over some inputs. -/
def run (r : Recorder) : List Input → Recorder
  | [] => r
  | input :: rest => (r.handle input).1.run rest

/-- How far a number of steps got: the steps that succeeded and the error that ended them. -/
structure Stretch where
  recorder : Recorder
  done : Nat
  error? : Option Error

/-- Tries steps until one fails, `count` at most; `done` have succeeded before. -/
def steps (r : Recorder) (count : Nat) (done : Nat := 0) : Stretch :=
  match count with
  | 0 => ⟨r, done, none⟩
  | count + 1 =>
    match r.step with
    | (r, none) => r.steps count (done + 1)
    | (r, some e) => ⟨r, done, some e⟩

/-- What a filter shows of some records. -/
def shown (filter : LogFilter) (records : List Record) : List Record :=
  records.filter filter.shows

/-- Recording does not change what a machine does. -/
theorem machine_handle (r : Recorder) (input : Input) :
    (r.handle input).1.machine = (r.machine.handle input).1
      ∧ (r.handle input).2 = (r.machine.handle input).2 := by
  obtain ⟨machine, filter, log⟩ := r
  cases input with
  | load program =>
    simp only [handle, load, Machine.handle]
    split <;> simp_all
  | step =>
    simp only [handle, step, Machine.handle]
    split <;> simp_all
  | setKey key down => exact ⟨rfl, rfl⟩
  | setKeys keys => exact ⟨rfl, rfl⟩

/-- The filter stays as it is. -/
theorem filter_handle (r : Recorder) (input : Input) :
    (r.handle input).1.filter = r.filter := by
  obtain ⟨machine, filter, log⟩ := r
  cases input with
  | load program =>
    simp only [handle, load]
    split <;> rfl
  | step =>
    simp only [handle, step]
    split <;> rfl
  | setKey key down => rfl
  | setKeys keys => rfl

/-- The log grows by what the filter shows of the records of the input. -/
theorem log_handle (r : Recorder) (input : Input) :
    (r.handle input).1.log.toList
      = r.log.toList ++ shown r.filter (r.machine.records input) := by
  obtain ⟨machine, filter, log⟩ := r
  cases input with
  | load program =>
    simp only [handle, load, Machine.records, Machine.handle]
    split <;> simp_all [LogFilter.toList_note, shown]
  | step =>
    simp only [handle, step, Machine.records, Machine.handle]
    split <;> simp_all [LogFilter.toList_note, shown, List.filter_cons]
    split <;> rfl
  | setKey key down => simp [handle, modify, Machine.records, shown]
  | setKeys keys => simp [handle, modify, Machine.records, shown]

theorem run_append (r : Recorder) (first second : List Input) :
    r.run (first ++ second) = (r.run first).run second := by
  induction first generalizing r with
  | nil => rfl
  | cons input rest ih => exact ih _

/-- The log of a run is put together from the records of its inputs. -/
theorem log_run (r : Recorder) (inputs : List Input) :
    (r.run inputs).log.toList = r.log.toList
      ++ shown r.filter
        ((r.machine.history inputs).flatMap fun (m, input) => m.records input) := by
  induction inputs generalizing r with
  | nil => simp [run, Machine.history, shown]
  | cons input rest ih =>
    rw [run, ih, log_handle, (machine_handle r input).1, filter_handle]
    simp [Machine.history, shown]

end Recorder

end Chip8
