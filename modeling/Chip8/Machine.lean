import Chip8.CallStack
import Chip8.Instruction
import Chip8.Keypad
import Chip8.Memory
import Chip8.RandomBytes
import Chip8.Screen

/-!
# The machine

The state of a CHIP-8 machine: sixteen byte registers, the index, the program counter, the
call stack, two timers, memory, screen and keypad, and the source of its random bytes.
-/

namespace Chip8

structure Machine where
  v : Bank UInt8
  index : UInt16
  pc : UInt16
  stack : CallStack
  /-- Steps until the delay is over. -/
  delay : UInt8
  /-- Steps until the sound is over. -/
  sound : UInt8
  memory : Memory
  screen : Screen
  keypad : Keypad
  random : RandomBytes

namespace Machine

/-- The machine before a program is loaded: zeros and a blank screen, with the program
counter where programs begin. -/
def fresh (random : RandomBytes) : Machine where
  v := .fill 0
  index := 0
  pc := Memory.programStart
  stack := .empty
  delay := 0
  sound := 0
  memory := .initial
  screen := .blank
  keypad := .released
  random := random

/-- The register that arithmetic and drawing leave a flag in. -/
def flag : Nibble := .ofNat 0xF

def reg (m : Machine) (r : Nibble) : UInt8 := m.v.entry r

def setReg (m : Machine) (r : Nibble) (b : UInt8) : Machine :=
  { m with v := m.v.update r b }

def setFlag (m : Machine) (on : Bool) : Machine := m.setReg flag on.toUInt8

/-- Whether a tone is heard. -/
def isSounding (m : Machine) : Bool := m.sound != 0

/-- Moves past one instruction. -/
def advance (m : Machine) : Machine := { m with pc := m.pc + 2 }

/-- Counts both timers down to zero by one. -/
def tick (m : Machine) : Machine :=
  { m with
    delay := if m.delay = 0 then 0 else m.delay - 1
    sound := if m.sound = 0 then 0 else m.sound - 1 }

/-- Puts a program into memory and changes nothing else. -/
def load (m : Machine) (program : List UInt8) : Machine × Option Error :=
  match m.memory.load program with
  | .ok memory => ({ m with memory := memory }, none)
  | .error e => (m, some e)

def setKey (m : Machine) (k : UInt8) (down : Bool) : Machine :=
  { m with keypad := m.keypad.set k down }

def setKeys (m : Machine) (keys : Bank Bool) : Machine :=
  { m with keypad := ⟨keys⟩ }

/-- Only the register that is set changes. -/
theorem reg_setReg (m : Machine) (r s : Nibble) (b : UInt8) :
    (m.setReg r b).reg s = if r = s then b else m.reg s := by
  simp only [reg, setReg, Bank.entry_update]

/-- The flag is the last register. -/
theorem reg_setFlag (m : Machine) (s : Nibble) (on : Bool) :
    (m.setFlag on).reg s = if flag = s then on.toUInt8 else m.reg s :=
  reg_setReg m flag s on.toUInt8

end Machine

end Chip8
