import Chip8.Proofs.Frame
import Mathlib.Data.List.Forall2

/-!
# Only twelve bits of an address count

The program counter, the index and the return addresses have sixteen bits, and memory uses
twelve of them (`SameByte`). Machines that differ in nothing but the upper four bits of
these addresses, and in slots of the call stack that are not in use, are `Alike`. Every
input does the same to them: `alike_handle` is one input, `alike_outcomes` a run. The
errors are the same but for the upper bits of their addresses (`Error.Alike`).
-/

namespace Chip8

/-- Two addresses name the same byte of memory. -/
def SameByte (a b : UInt16) : Prop := a.toNat % 4096 = b.toNat % 4096

namespace SameByte

theorem of_eq {a b : UInt16} (h : a = b) : SameByte a b := h ▸ rfl

theorem add {a b : UInt16} (h : SameByte a b) (c : UInt16) : SameByte (a + c) (b + c) := by
  unfold SameByte at *
  simp only [UInt16.toNat_add]
  omega

theorem sub {a b : UInt16} (h : SameByte a b) (c : UInt16) : SameByte (a - c) (b - c) := by
  unfold SameByte at *
  have := c.toNat_lt
  simp only [UInt16.toNat_sub]
  omega

end SameByte

/-! ## Memory -/

namespace Memory

theorem write_congr (m : Memory) {a b : UInt16} (h : SameByte a b) (v : UInt8) :
    m.write a v = m.write b v := by
  have hposition : position a = position b := Fin.ext h
  unfold write
  simp only [hposition]

theorem readBlock_congr (m : Memory) {a b : UInt16} (h : SameByte a b) (count : Nat) :
    m.readBlock a count = m.readBlock b count := by
  unfold readBlock
  apply List.map_congr_left
  intro k _
  exact m.read_congr (h.add _)

theorem writeBlock_congr (m : Memory) {a b : UInt16} (h : SameByte a b) (block : List UInt8) :
    m.writeBlock a block = m.writeBlock b block := by
  induction block generalizing m a b with
  | nil => rfl
  | cons byte rest ih => rw [writeBlock, writeBlock, m.write_congr h byte, ih _ (h.add 1)]

end Memory

/-! ## The call stack -/

/-- Call stacks of the same height whose addresses in use name the same bytes. A slot that
is not in use may hold anything. -/
structure CallStack.Alike (s t : CallStack) : Prop where
  depth : s.depth = t.depth
  slots : ∀ i : Fin 16, i.val < s.depth.val → SameByte s.slots[i] t.slots[i]

namespace CallStack.Alike

variable {s t : CallStack}

theorem isFull (h : s.Alike t) : s.isFull = t.isFull := by
  rw [CallStack.isFull, CallStack.isFull, h.depth]

theorem pop (h : s.Alike t) : s.pop.Alike t.pop := by
  refine ⟨?_, ?_⟩
  · apply Fin.ext
    show s.depth.val - 1 = t.depth.val - 1
    rw [h.depth]
  · intro i hi
    have hlt : i.val < s.depth.val - 1 := hi
    exact h.slots i (by omega)

theorem push (h : s.Alike t) {a b : UInt16} (hab : SameByte a b) :
    (s.push a).Alike (t.push b) := by
  by_cases hfree : s.depth.val < 16
  · have hfree' : t.depth.val < 16 := h.depth ▸ hfree
    rw [CallStack.push, CallStack.push, dif_pos hfree, dif_pos hfree']
    refine ⟨?_, ?_⟩
    · apply Fin.ext
      show s.depth.val + 1 = t.depth.val + 1
      rw [h.depth]
    · intro i hi
      have hlt : i.val < s.depth.val + 1 := hi
      simp only [Fin.getElem_fin, Vector.getElem_set, ← h.depth]
      split
      · exact hab
      · exact h.slots i (by omega)
  · have hfull : ¬ t.depth.val < 16 := h.depth ▸ hfree
    rw [CallStack.push, CallStack.push, dif_neg hfree, dif_neg hfull]
    exact h

/-- Where there is an address to go back to in one stack, there is one in the other. -/
theorem top? (h : s.Alike t) : Option.Rel SameByte s.top? t.top? := by
  by_cases hused : 0 < s.depth.val
  · have hused' : 0 < t.depth.val := h.depth ▸ hused
    rw [CallStack.top?, CallStack.top?, dif_pos hused, dif_pos hused']
    have hslot := h.slots ⟨s.depth.val - 1, by omega⟩ (by show s.depth.val - 1 < _; omega)
    simp only [Fin.getElem_fin, h.depth] at hslot ⊢
    exact .some hslot
  · have hempty : ¬ 0 < t.depth.val := h.depth ▸ hused
    rw [CallStack.top?, CallStack.top?, dif_neg hused, dif_neg hempty]
    exact .none

end CallStack.Alike

/-! ## Machines -/

/-- The same kind of error, of the same word, at addresses that name the same byte. -/
inductive Error.Alike : Error → Error → Prop
  | romTooLarge (size limit : Nat) : Alike (.romTooLarge size limit) (.romTooLarge size limit)
  | invalidInstruction (word : Word) {a b : UInt16} :
    SameByte a b → Alike (.invalidInstruction word a) (.invalidInstruction word b)
  | stackOverflow {a b : UInt16} : SameByte a b → Alike (.stackOverflow a) (.stackOverflow b)
  | stackUnderflow {a b : UInt16} :
      SameByte a b → Alike (.stackUnderflow a) (.stackUnderflow b)
  | readFailed (failure : ReadFailure) : Alike (.readFailed failure) (.readFailed failure)

namespace Machine

/-- Machines that differ at most in the upper four bits of their addresses and in slots of
the call stack that are not in use. -/
structure Alike (m n : Machine) : Prop where
  v : m.v = n.v
  index : SameByte m.index n.index
  pc : SameByte m.pc n.pc
  stack : m.stack.Alike n.stack
  delay : m.delay = n.delay
  sound : m.sound = n.sound
  memory : m.memory = n.memory
  screen : m.screen = n.screen
  keypad : m.keypad = n.keypad
  random : m.random = n.random

/-- The same comes of both: machines that are alike, and errors that are. -/
def OutcomeAlike (p q : Machine × Option Error) : Prop :=
  p.1.Alike q.1 ∧ Option.Rel Error.Alike p.2 q.2

namespace Alike

variable {m n : Machine}

theorem reg (h : m.Alike n) (r : Nibble) : m.reg r = n.reg r := by
  rw [Machine.reg, Machine.reg, h.v]

theorem setReg (h : m.Alike n) (r : Nibble) {b c : UInt8} (hbc : b = c) :
    (m.setReg r b).Alike (n.setReg r c) :=
  { h with v := by rw [Machine.setReg, Machine.setReg, h.v, hbc] }

theorem setFlag (h : m.Alike n) (on : Bool) : (m.setFlag on).Alike (n.setFlag on) :=
  h.setReg flag rfl

theorem advance (h : m.Alike n) : m.advance.Alike n.advance :=
  { h with pc := h.pc.add 2 }

theorem tick (h : m.Alike n) : m.tick.Alike n.tick :=
  { h with
    delay := by rw [Machine.tick, Machine.tick, h.delay]
    sound := by rw [Machine.tick, Machine.tick, h.sound] }

theorem meets (h : m.Alike n) (condition : Condition) :
    m.meets condition = n.meets condition := by
  cases condition <;> simp only [Machine.meets, h.reg, h.keypad]

theorem compute (h : m.Alike n) (operation : Arithmetic) (x y : Nibble) :
    (m.compute operation x y).Alike (n.compute operation x y) := by
  cases operation <;> simp only [Machine.compute, h.reg, (h.setFlag _).reg]
  case copy | or | and | xor => exact h.setReg x rfl
  case add | subtract | halve | subtractFrom | double => exact (h.setFlag _).setReg x rfl

theorem draw (h : m.Alike n) (x y height : Nibble) :
    (m.draw x y height).Alike (n.draw x y height) := by
  have hblock : m.memory.readBlock m.index height.val
      = n.memory.readBlock n.index height.val := by
    rw [h.memory, n.memory.readBlock_congr h.index]
  simp only [draw_eq, h.screen, h.reg x, h.reg y, hblock]
  exact { h with v := by rw [h.v], screen := rfl }

theorem awaitKey (h : m.Alike n) (x : Nibble) : (m.awaitKey x).Alike (n.awaitKey x) := by
  have hlowest : m.keypad.lowest? = n.keypad.lowest? := by rw [h.keypad]
  unfold Machine.awaitKey
  rw [hlowest]
  split
  · exact h.setReg x rfl
  · exact { h with pc := h.pc.sub 2 }

theorem loadRegs (h : m.Alike n) (last : Nibble) :
    (m.loadRegs last).Alike (n.loadRegs last) := by
  have hregs : (m.loadRegs last).v = (n.loadRegs last).v := by
    apply Bank.ext_entry
    intro r
    simp only [Machine.loadRegs, Bank.entry_ofFn, h.reg, h.memory,
      n.memory.read_congr (h.index.add _)]
  show ({ m with v := (m.loadRegs last).v } : Machine).Alike
    { n with v := (n.loadRegs last).v }
  exact { h with v := hregs }

theorem writeBlock (h : m.Alike n) {block block' : List UInt8} (hblock : block = block') :
    ({ m with memory := m.memory.writeBlock m.index block } : Machine).Alike
      { n with memory := n.memory.writeBlock n.index block' } :=
  { h with memory := by rw [h.memory, hblock, n.memory.writeBlock_congr h.index] }

end Alike

/-! ## One input -/

theorem alike_leave {m n : Machine} (h : m.Alike n) : OutcomeAlike m.leave n.leave := by
  have htop := h.stack.top?
  unfold leave
  rcases hm : m.stack.top? with _ | a <;> rcases hn : n.stack.top? with _ | b <;>
    rw [hm, hn] at htop
  · exact ⟨h, .some (.stackUnderflow (h.pc.sub 2))⟩
  · cases htop
  · cases htop
  · cases htop with
    | some hab => exact ⟨{ h with pc := hab, stack := h.stack.pop }, .none⟩

theorem alike_enter {m n : Machine} (h : m.Alike n) (target : UInt16) :
    OutcomeAlike (m.enter target) (n.enter target) := by
  unfold enter
  rw [h.stack.isFull]
  split
  · exact ⟨h, .some (.stackOverflow (h.pc.sub 2))⟩
  · exact ⟨{ h with pc := .of_eq rfl, stack := h.stack.push h.pc }, .none⟩

/-- Every instruction does the same to machines that are alike. -/
theorem alike_execute {m n : Machine} (h : m.Alike n) (instruction : Instruction) :
    OutcomeAlike (m.execute instruction) (n.execute instruction) := by
  cases instruction with
  | clear => exact ⟨{ h with screen := rfl }, .none⟩
  | ret => exact alike_leave h
  | jump target => exact ⟨{ h with pc := .of_eq rfl }, .none⟩
  | call target => exact alike_enter h target
  | skip condition =>
    refine ⟨?_, .none⟩
    show (if m.meets condition then m.advance else m).Alike
      (if n.meets condition then n.advance else n)
    rw [h.meets condition]
    split
    · exact h.advance
    · exact h
  | setByte x byte => exact ⟨h.setReg x rfl, .none⟩
  | addByte x byte => exact ⟨h.setReg x (by rw [h.reg x]), .none⟩
  | compute operation x y => exact ⟨h.compute operation x y, .none⟩
  | setIndex address => exact ⟨{ h with index := .of_eq rfl }, .none⟩
  | jumpFrom base =>
    -- the sum has no mask, but both operands are equal
    have hpc : (m.reg (.ofNat 0)).toUInt16 + base = (n.reg (.ofNat 0)).toUInt16 + base := by
      rw [h.reg]
    exact ⟨{ h with pc := .of_eq hpc }, .none⟩
  | random x mask =>
    have hrandom : ({ m with random := m.random.skip 1 } : Machine).Alike
        { n with random := n.random.skip 1 } := { h with random := by rw [h.random] }
    exact ⟨hrandom.setReg x (by rw [h.random]), .none⟩
  | draw x y height => exact ⟨h.draw x y height, .none⟩
  | readDelay x => exact ⟨h.setReg x h.delay, .none⟩
  | awaitKey x => exact ⟨h.awaitKey x, .none⟩
  | setDelay x => exact ⟨{ h with delay := h.reg x }, .none⟩
  | setSound x => exact ⟨{ h with sound := h.reg x }, .none⟩
  | addIndex x =>
    have hindex : SameByte (m.index + (m.reg x).toUInt16) (n.index + (n.reg x).toUInt16) := by
      rw [h.reg x]
      exact h.index.add _
    exact ⟨{ h with index := hindex }, .none⟩
  | glyph x =>
    have hindex : Memory.fontStart + Memory.glyphSize * (m.reg x).toUInt16
        = Memory.fontStart + Memory.glyphSize * (n.reg x).toUInt16 := by
      rw [h.reg x]
    exact ⟨{ h with index := .of_eq hindex }, .none⟩
  | decimal x => exact ⟨h.writeBlock (by rw [h.reg x]), .none⟩
  | store last => exact ⟨h.writeBlock (by rw [h.v]), .none⟩
  | load last => exact ⟨h.loadRegs last, .none⟩

theorem alike_fetch {m n : Machine} (h : m.Alike n) : m.fetch = n.fetch := by
  rw [fetch, fetch, h.memory, n.memory.read_congr h.pc, n.memory.read_congr (h.pc.add 1)]

theorem alike_dispatch {m n : Machine} (h : m.Alike n) (w : Word) :
    OutcomeAlike (m.dispatch w) (n.dispatch w) := by
  unfold dispatch
  split
  · exact alike_execute h _
  · exact ⟨h, .some (.invalidInstruction w (h.pc.sub 2))⟩

theorem alike_step {m n : Machine} (h : m.Alike n) : OutcomeAlike m.step n.step := by
  have hdispatch := alike_dispatch h.advance m.fetch
  rw [step, step, ← alike_fetch h]
  generalize m.advance.dispatch m.fetch = p at hdispatch ⊢
  generalize n.advance.dispatch m.fetch = q at hdispatch ⊢
  obtain ⟨m', e⟩ := p
  obtain ⟨n', e'⟩ := q
  obtain ⟨hmachine, herror⟩ := hdispatch
  change Option.Rel Error.Alike e e' at herror
  cases herror with
  | none => exact ⟨hmachine.tick, .none⟩
  | some he => exact ⟨hmachine, .some he⟩

theorem alike_load {m n : Machine} (h : m.Alike n) (program : List UInt8) :
    OutcomeAlike (m.load program) (n.load program) := by
  unfold load Memory.load
  rw [h.memory]
  by_cases hfits : program.length ≤ Memory.programLimit
  · simp only [if_pos hfits]
    exact ⟨{ h with memory := rfl }, .none⟩
  · simp only [if_neg hfits]
    exact ⟨h, .some (.romTooLarge _ _)⟩

theorem alike_handle {m n : Machine} (h : m.Alike n) (input : Input) :
    OutcomeAlike (m.handle input) (n.handle input) := by
  cases input with
  | load program => exact alike_load h program
  | setKey key down =>
    have hkeypad : m.keypad.set key down = n.keypad.set key down := by rw [h.keypad]
    exact ⟨{ h with keypad := hkeypad }, .none⟩
  | setKeys keys => exact ⟨{ h with keypad := rfl }, .none⟩
  | step => exact alike_step h

/-- **Only twelve bits of an address count.** Machines that are alike fail on the same
inputs of a run, with errors that are alike, and are alike after each of them: their
registers, memory, pixels and keys never come to differ. -/
theorem alike_outcomes {m n : Machine} (h : m.Alike n) (inputs : List Input) :
    List.Forall₂ OutcomeAlike (m.outcomes inputs) (n.outcomes inputs) := by
  induction inputs generalizing m n with
  | nil => exact .nil
  | cons input rest ih =>
    have hinput := alike_handle h input
    exact .cons hinput (ih hinput.1)

/-- A return that succeeds and one that fails, with all addresses and all idle slots
different. -/
theorem alike_outcomes_of_returns :
    let m : Machine := { fresh (.cycle #[]) with stack := CallStack.empty.push 0x202 }
    let stale : CallStack := ⟨Vector.replicate 16 0x777, 0⟩
    let n : Machine := { m with pc := 0xF200, index := 0x1000, stack := stale.push 0xA202 }
    let inputs : List Input := [.load [0x00, 0xEE, 0x00, 0xEE], .step, .step]
    m.Alike n ∧ List.Forall₂ OutcomeAlike (m.outcomes inputs) (n.outcomes inputs) := by
  intro m stale n inputs
  have hempty : CallStack.empty.Alike stale := by
    refine ⟨rfl, ?_⟩
    intro i hi
    exact absurd hi (Nat.not_lt_zero _)
  have halike : m.Alike n := by
    refine ⟨rfl, ?_, ?_, hempty.push ?_, rfl, rfl, rfl, rfl, rfl, rfl⟩
    · show 0 % 4096 = 0x1000 % 4096
      decide
    · show 0x200 % 4096 = 0xF200 % 4096
      decide
    · show 0x202 % 4096 = 0xA202 % 4096
      decide
  exact ⟨halike, alike_outcomes halike inputs⟩

end Machine

end Chip8
