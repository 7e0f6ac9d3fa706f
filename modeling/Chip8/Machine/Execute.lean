import Chip8.Machine

/-!
# What an instruction does

`execute` carries out an instruction on a machine whose program counter is already past
it. The operations that leave a flag write it before their result. Subtraction and shifts
read their operands after that, so an operand in the flag register is the flag just
written, and a result in the flag register replaces the flag. Addition reads its operands
first.

Two instructions can fail: a return without a call to go back to, and a call without a
slot that is free. The error names the address of the word, two bytes before the program
counter.
-/

namespace Chip8.Machine

/-- Whether the condition of a skip holds. -/
def meets (m : Machine) : Condition → Bool
  | .equalsByte x byte => m.reg x == byte
  | .differsByte x byte => m.reg x != byte
  | .equals x y => m.reg x == m.reg y
  | .differs x y => m.reg x != m.reg y
  | .keyDown x => m.keypad.isDown (m.reg x)
  | .keyUp x => !m.keypad.isDown (m.reg x)

/-- Computes with registers `x` and `y` and leaves the result in `x`. -/
def compute (m : Machine) (operation : Arithmetic) (x y : Nibble) : Machine :=
  match operation with
  | .copy => m.setReg x (m.reg y)
  | .or => m.setReg x (m.reg x ||| m.reg y)
  | .and => m.setReg x (m.reg x &&& m.reg y)
  | .xor => m.setReg x (m.reg x ^^^ m.reg y)
  | .add =>
    let first := m.reg x
    let second := m.reg y
    (m.setFlag (255 < first.toNat + second.toNat)).setReg x (first + second)
  | .subtract =>
    let flagged := m.setFlag (m.reg y < m.reg x)
    -- the operands are read again, since one of them may be the flag
    flagged.setReg x (flagged.reg x - flagged.reg y)
  | .halve =>
    let flagged := m.setFlag (m.reg x % 2 == 1)
    flagged.setReg x (flagged.reg x / 2)
  | .subtractFrom =>
    let flagged := m.setFlag (m.reg x < m.reg y)
    flagged.setReg x (flagged.reg y - flagged.reg x)
  | .double =>
    let flagged := m.setFlag (128 ≤ m.reg x)
    flagged.setReg x (flagged.reg x * 2)

/-- Draws the sprite that the index points at and sets the flag iff a pixel was turned off. -/
def draw (m : Machine) (x y height : Nibble) : Machine :=
  let sprite := m.memory.readBlock m.index height.val
  let cleared := m.setFlag false
  -- the start is where the registers were before the flag was cleared
  match m.screen.draw (m.reg x) (m.reg y) sprite with
  | (screen, true) => { cleared with screen := screen }.setFlag true
  | (screen, false) => { cleared with screen := screen }

/-- The three decimal digits of a byte. -/
def decimalDigits (b : UInt8) : List UInt8 := [b / 100, b / 10 % 10, b % 10]

/-- The address of the word that is carried out; the program counter is already past it. -/
def fetchedAt (m : Machine) : UInt16 := m.pc - 2

/-- Goes back to the most recent call. -/
def leave (m : Machine) : Machine × Option Error :=
  match m.stack.top? with
  | some address => ({ m with pc := address, stack := m.stack.pop }, none)
  | none => (m, some (.stackUnderflow m.fetchedAt))

/-- Goes to an address and remembers the next word. -/
def enter (m : Machine) (target : UInt16) : Machine × Option Error :=
  if m.stack.isFull then (m, some (.stackOverflow m.fetchedAt))
  else ({ m with pc := target, stack := m.stack.push m.pc }, none)

/-- A return without a call changes nothing. -/
theorem leave_of_isEmpty {m : Machine} (h : m.stack.isEmpty = true) :
    m.leave = (m, some (.stackUnderflow m.fetchedAt)) := by
  have htop : m.stack.top? = none := (CallStack.top?_eq_none_iff _).mpr h
  rw [leave, htop]

/-- A call without a free slot changes nothing. -/
theorem enter_of_isFull {m : Machine} (target : UInt16) (h : m.stack.isFull = true) :
    m.enter target = (m, some (.stackOverflow m.fetchedAt)) := by
  rw [enter, if_pos h]

/-- A return with a call to go back to succeeds. -/
theorem error_leave {m : Machine} (h : m.stack.isEmpty = false) : m.leave.2 = none := by
  unfold leave
  split
  · rfl
  · rename_i htop
    rw [CallStack.top?_eq_none_iff, h] at htop
    cases htop

/-- A call with a free slot succeeds. -/
theorem error_enter {m : Machine} (target : UInt16) (h : m.stack.isFull = false) :
    (m.enter target).2 = none := by
  simp [enter, h]

/-- Reads the lowest key that is down, or goes back to the word that waits for it. -/
def awaitKey (m : Machine) (x : Nibble) : Machine :=
  match m.keypad.lowest? with
  | some key => m.setReg x (UInt8.ofNat key.val)
  | none => { m with pc := m.pc - 2 }

/-- Reads the registers up to `last` from memory. -/
def loadRegs (m : Machine) (last : Nibble) : Machine :=
  { m with
    v := .ofFn fun r =>
      if r.val ≤ last.val then m.memory.read (m.index + UInt16.ofNat r.val) else m.reg r }

/-- Carries out an instruction that the program counter is already past, and gives its
error if it failed. -/
def execute (m : Machine) : Instruction → Machine × Option Error
  | .clear => ({ m with screen := .blank }, none)
  | .ret => m.leave
  | .jump target => ({ m with pc := target }, none)
  | .call target => m.enter target
  | .skip condition => (if m.meets condition then m.advance else m, none)
  | .setByte x byte => (m.setReg x byte, none)
  | .addByte x byte => (m.setReg x (m.reg x + byte), none)
  | .compute operation x y => (m.compute operation x y, none)
  | .setIndex address => ({ m with index := address }, none)
  | .jumpFrom base => ({ m with pc := (m.reg (.ofNat 0)).toUInt16 + base }, none)
  | .random x mask =>
    ({ m with random := m.random.skip 1 }.setReg x (m.random.peek &&& mask), none)
  | .draw x y height => (m.draw x y height, none)
  | .readDelay x => (m.setReg x m.delay, none)
  | .awaitKey x => (m.awaitKey x, none)
  | .setDelay x => ({ m with delay := m.reg x }, none)
  | .setSound x => ({ m with sound := m.reg x }, none)
  | .addIndex x => ({ m with index := m.index + (m.reg x).toUInt16 }, none)
  | .glyph x =>
    ({ m with index := Memory.fontStart + Memory.glyphSize * (m.reg x).toUInt16 }, none)
  | .decimal x =>
    ({ m with memory := m.memory.writeBlock m.index (decimalDigits (m.reg x)) }, none)
  | .store last =>
    ({ m with memory := m.memory.writeBlock m.index (m.v.toList.take (last.val + 1)) }, none)
  | .load last => (m.loadRegs last, none)

end Chip8.Machine
