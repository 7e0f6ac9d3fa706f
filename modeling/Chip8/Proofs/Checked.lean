import Chip8.Machine.Run
import Mathlib.Algebra.Ring.Nat

/-!
# A machine that checks

The machine of `Chip8.Machine` has no access that can fail, since its places are of types
that cannot be left. Here is the same machine in plain numbers. The fields of a word are
cut out by shifts and masks, places in tables, the depth of the calls and the place in the
list of random bytes are natural numbers, and every access and every sum is checked: an
index outside its table, a slice outside its list, a sum, a difference or a product
outside its type gives `none`, and with it everything that comes after.

A `Handler` carries out one kind of word. It gives `none` where a check fails, and
otherwise a state and the error of the machine, if there is one.
-/

namespace Chip8.Checked

/-! ## Operations -/

section Operations

variable {α : Type} {size : Nat}

/-- The bits of a machine word, which counts and places in lists have. -/
def wordBits : Nat := 64

def add (bits a b : Nat) : Option Nat := if a + b < 2 ^ bits then some (a + b) else none

def mul (bits a b : Nat) : Option Nat := if a * b < 2 ^ bits then some (a * b) else none

def sub (a b : Nat) : Option Nat := if b ≤ a then some (a - b) else none

def rem (a b : Nat) : Option Nat := if b = 0 then none else some (a % b)

/-- Shifts a byte, by less than it has bits. -/
def shiftRight (b : UInt8) (count : Nat) : Option UInt8 :=
  if count < 8 then some (b >>> UInt8.ofNat count) else none

def store (table : Vector α size) (i : Nat) (a : α) : Option (Vector α size) :=
  if h : i < size then some (table.set i a h) else none

/-- Copies a block to the places from `first` on and before `stop`, which it must fill. -/
def splice (table : Vector α size) (first stop : Nat) (block : List α) :
    Option (Vector α size) :=
  if first ≤ stop ∧ stop ≤ size ∧ block.length = stop - first then
    some (Vector.ofFn fun k =>
      if first ≤ k.val then block[k.val - first]?.getD table[k] else table[k])
  else none

/-- The first `count` entries of a list that has as many. -/
def slice (list : List α) (count : Nat) : Option (List α) :=
  if count ≤ list.length then some (list.take count) else none

end Operations

/-! ## Fields of words -/

def highByte (w : UInt16) : UInt8 := (w >>> 8).toUInt8

def kk (w : UInt16) : UInt8 := (w &&& 0xFF).toUInt8

def upper (b : UInt8) : Nat := ((b >>> 4) &&& 0xF).toNat

def lower (b : UInt8) : Nat := (b &&& 0xF).toNat

def family (w : UInt16) : Nat := upper (highByte w)

def x (w : UInt16) : Nat := lower (highByte w)

def y (w : UInt16) : Nat := upper (kk w)

def n (w : UInt16) : Nat := lower (kk w)

def nnn (w : UInt16) : UInt16 := w &&& 0xFFF

/-! ## States -/

structure State where
  v : Vector UInt8 16
  index : UInt16
  pc : UInt16
  slots : Vector UInt16 16
  /-- The number of slots in use. -/
  depth : Nat
  delay : UInt8
  sound : UInt8
  bytes : Vector UInt8 4096
  pixels : Vector Bool 2048
  keys : Vector Bool 16
  /-- The random bytes, which are used over and over. -/
  tape : Array UInt8
  /-- The place of the next random byte. -/
  place : Nat

namespace State

def reg (s : State) (r : Nat) : Option UInt8 := s.v[r]?

def setReg (s : State) (r : Nat) (b : UInt8) : Option State := do
  let v ← store s.v r b
  some { s with v := v }

def read (s : State) (a : UInt16) : Option UInt8 := s.bytes[(a &&& 0xFFF).toNat]?

def write (s : State) (a : UInt16) (b : UInt8) : Option State := do
  let bytes ← store s.bytes (a &&& 0xFFF).toNat b
  some { s with bytes := bytes }

def skip (s : State) : State := { s with pc := s.pc + 2 }

def fetchedAt (s : State) : UInt16 := s.pc - 2

/-- Takes a slot for an address, and tells whether there was one. -/
def push (s : State) (a : UInt16) : Option (State × Bool) :=
  if 16 ≤ s.depth then some (s, false)
  else do
    let slots ← store s.slots s.depth a
    let depth ← add wordBits s.depth 1
    some ({ s with slots := slots, depth := depth }, true)

/-- Gives a slot back, and the address in it. -/
def pop (s : State) : Option (State × Option UInt16) :=
  if s.depth = 0 then some (s, none)
  else do
    let depth ← sub s.depth 1
    let a ← s.slots[depth]?
    some ({ s with depth := depth }, some a)

def isDown (s : State) (k : UInt8) : Option Bool := s.keys[lower k]?

def setKey (s : State) (k : UInt8) (down : Bool) : Option State := do
  let keys ← store s.keys (lower k) down
  some { s with keys := keys }

/-- Uses up a random byte. A list without bytes gives zeros. -/
def nextByte (s : State) : Option (State × UInt8) :=
  if s.tape.size = 0 then some (s, 0)
  else do
    let b ← s.tape[s.place]?
    let next ← add wordBits s.place 1
    let place ← rem next s.tape.size
    some ({ s with place := place }, b)

/-- Whether a pixel is on; outside the screen none is, and no place is computed. -/
def pixel (s : State) (x y : Nat) : Option Bool :=
  if x < 64 ∧ y < 32 then do
    let row ← mul wordBits y 64
    let place ← add wordBits row x
    s.pixels[place]?
  else some false

def tick (s : State) : State :=
  { s with
    delay := if s.delay = 0 then 0 else s.delay - 1
    sound := if s.sound = 0 then 0 else s.sound - 1 }

end State

/-! ## Drawing -/

/-- Pixels, and whether one of them has been turned off. -/
abbrev Canvas := Vector Bool 2048 × Bool

def turnOver (c : Canvas) (x y : Nat) : Option Canvas := do
  let row ← mul wordBits y 64
  let place ← add wordBits row x
  let on ← c.1[place]?
  let pixels ← store c.1 place !on
  some (pixels, c.2 || on)

def drawBits (c : Canvas) (x y : Nat) (b : UInt8) : List Nat → Option Canvas
  | [] => some c
  | column :: rest => do
    let px ← add wordBits x column
    -- the right edge ends the row
    if 64 ≤ px then some c
    else do
      let mask ← shiftRight 0x80 column
      let c ← if b &&& mask != 0 then turnOver c px y else some c
      drawBits c x y b rest

/-- Draws the rows of a sprite from number `row` on. -/
def drawRows (c : Canvas) (x y row : Nat) : List UInt8 → Option Canvas
  | [] => some c
  | b :: rest => do
    let py ← add wordBits y row
    -- the lower edge ends the sprite
    if 32 ≤ py then some c
    else do
      let c ← drawBits c x py b (List.range 8)
      drawRows c x y (row + 1) rest

/-! ## Handlers -/

/-- What becomes of a state, and the error of the machine. -/
abbrev Outcome := Option (State × Option Error)

abbrev Handler := State → UInt16 → Outcome

def done (s : State) : Outcome := some (s, none)

def clear : Handler := fun s _ => done { s with pixels := .replicate 2048 false }

def ret : Handler := fun s _ => do
  match ← s.pop with
  | (s, some a) => done { s with pc := a }
  | (s, none) => some (s, some (.stackUnderflow s.fetchedAt))

def jump : Handler := fun s w => done { s with pc := nnn w }

def call : Handler := fun s w => do
  match ← s.push s.pc with
  | (s, true) => done { s with pc := nnn w }
  | (s, false) => some (s, some (.stackOverflow s.fetchedAt))

/-- Passes over the next word if a register and the low byte pass a test. -/
def skipByte (test : UInt8 → UInt8 → Bool) : Handler := fun s w => do
  let b ← s.reg (x w)
  done (if test b (kk w) then s.skip else s)

/-- Passes over the next word if two registers pass a test. -/
def skipReg (test : UInt8 → UInt8 → Bool) : Handler := fun s w => do
  let a ← s.reg (x w)
  let b ← s.reg (y w)
  done (if test a b then s.skip else s)

/-- Passes over the next word if the key in a register is down, or if it is up. -/
def skipKey (down : Bool) : Handler := fun s w => do
  let k ← s.reg (x w)
  let on ← s.isDown k
  done (if on == down then s.skip else s)

/-- Sets the first register of a word. -/
def assign (value : State → UInt16 → Option UInt8) : Handler := fun s w => do
  let b ← value s w
  let s ← s.setReg (x w) b
  done s

def setByte : Handler := assign fun _ w => some (kk w)

/-- The first register of a word. -/
def first (s : State) (w : UInt16) : Option UInt8 := s.reg (x w)

def addByte : Handler :=
  assign fun s w => do
    let b ← first s w
    some (b + kk w)

/-- Both registers of a word. -/
def both (s : State) (w : UInt16) : Option (UInt8 × UInt8) := do
  let a ← s.reg (x w)
  let b ← s.reg (y w)
  some (a, b)

/-- Sets the first register to what both make. -/
def combine (operation : UInt8 × UInt8 → UInt8) : Handler :=
  assign fun s w => do
    let operands ← both s w
    some (operation operands)

/-- Reads operands and writes a flag, then reads them again and writes a result. -/
def flagged {α : Type} (operands : State → UInt16 → Option α) (flag result : α → UInt8) :
    Handler :=
  fun s w => do
    let before ← operands s w
    let s ← s.setReg 0xF (flag before)
    let after ← operands s w
    let s ← s.setReg (x w) (result after)
    done s

def addReg : Handler := fun s w => do
  let (a, b) ← both s w
  let sum ← add 16 a.toNat b.toNat
  let s ← s.setReg 0xF (decide (255 < sum)).toUInt8
  let s ← s.setReg (x w) (UInt8.ofNat sum)
  done s

def setIndex : Handler := fun s w => done { s with index := nnn w }

def jumpFrom : Handler := fun s w => do
  let b ← s.reg 0
  let sum ← add 16 b.toNat (nnn w).toNat
  done { s with pc := UInt16.ofNat sum }

def random : Handler := fun s w => do
  let (s, b) ← s.nextByte
  let s ← s.setReg (x w) (b &&& kk w)
  done s

/-- Reads a sprite. There is room for fifteen rows, and those that are not read are zero. -/
def sprite (s : State) (height : Nat) : Option (List UInt8) := do
  let rows ← (List.range (min 15 height)).mapM fun row => s.read (s.index + UInt16.ofNat row)
  slice (rows ++ .replicate (15 - rows.length) 0) height

def draw : Handler := fun s w => do
  let (a, b) ← both s w
  let rows ← sprite s (n w)
  -- the start has been read, so a register that is also the flag does not matter
  let s ← s.setReg 0xF 0
  let (pixels, collided) ← drawRows (s.pixels, false) (a.toNat % 64) (b.toNat % 32) 0 rows
  let s := { s with pixels := pixels }
  if collided then
    let s ← s.setReg 0xF 1
    done s
  else done s

def awaitKey : Handler := fun s w =>
  match s.keys.toList.findIdx? id with
  | some k => do
    let s ← s.setReg (x w) (UInt8.ofNat k)
    done s
  | none => done { s with pc := s.pc - 2 }

/-- Puts the first register somewhere else. -/
def transfer (put : State → UInt8 → State) : Handler := fun s w => do
  let b ← s.reg (x w)
  done (put s b)

def glyph : Handler := fun s w => do
  let digit ← s.reg (x w)
  let offset ← mul 16 5 digit.toNat
  let a ← add 16 0x050 offset
  done { s with index := UInt16.ofNat a }

def decimal : Handler := fun s w => do
  let b ← s.reg (x w)
  -- addresses go round, so these sums are not checked
  let i := s.index
  let s ← s.write i (b / 100)
  let s ← s.write (i + 1) (b / 10 % 10)
  let s ← s.write (i + 2) (b % 10)
  done s

/-- Writes register `r` to its place behind the index. -/
def storeReg (s : State) (r : Nat) : Option State := do
  let b ← s.reg r
  s.write (s.index + UInt16.ofNat r) b

/-- Reads register `r` from its place behind the index. -/
def loadReg (s : State) (r : Nat) : Option State := do
  let b ← s.read (s.index + UInt16.ofNat r)
  s.setReg r b

/-- Does something with every register up to the first one of a word. -/
def eachReg (body : State → Nat → Option State) : Handler := fun s w => do
  let s ← (List.range (x w + 1)).foldlM body s
  done s

/-! ## Tables -/

def tableOf (size : Nat) (entries : List (Nat × Handler)) : Array (Option Handler) :=
  Array.ofFn fun k : Fin size => entries.lookup k.val

def lookup (table : Array (Option Handler)) (key : Nat) : Handler := fun s w => do
  match ← table[key]? with
  | some handler => handler s w
  | none => some (s, some (.invalidInstruction ⟨w⟩ s.fetchedAt))

/-- Looks a word up by its last digit. -/
def byDigit (entries : List (Nat × Handler)) : Handler := fun s w =>
  lookup (tableOf 16 entries) (n w) s w

/-- Looks a word up by its low byte. -/
def byByte (entries : List (Nat × Handler)) : Handler := fun s w =>
  lookup (tableOf 256 entries) (kk w).toNat s w

def entries0 : List (Nat × Handler) := [(0x0, clear), (0xE, ret)]

def entries8 : List (Nat × Handler) :=
  [(0x0, combine fun (_, b) => b),
   (0x1, combine fun (a, b) => a ||| b),
   (0x2, combine fun (a, b) => a &&& b),
   (0x3, combine fun (a, b) => a ^^^ b),
   (0x4, addReg),
   (0x5, flagged both (fun (a, b) => (decide (b < a)).toUInt8) fun (a, b) => a - b),
   (0x6, flagged first (fun a => a &&& 1) fun a => a >>> 1),
   (0x7, flagged both (fun (a, b) => (decide (a < b)).toUInt8) fun (a, b) => b - a),
   (0xE, flagged first (fun a => (a >>> 7) &&& 1) fun a => a <<< 1)]

def entriesE : List (Nat × Handler) := [(0x1, skipKey false), (0xE, skipKey true)]

def entriesF : List (Nat × Handler) :=
  [(0x07, assign fun s _ => some s.delay),
   (0x0A, awaitKey),
   (0x15, transfer fun s b => { s with delay := b }),
   (0x18, transfer fun s b => { s with sound := b }),
   (0x1E, transfer fun s b => { s with index := s.index + b.toUInt16 }),
   (0x29, glyph),
   (0x33, decimal),
   (0x55, eachReg storeReg),
   (0x65, eachReg loadReg)]

/-- The handlers by the top digit of a word. -/
def primary : Array Handler :=
  #[byDigit entries0,
    jump,
    call,
    skipByte (· == ·),
    skipByte (· != ·),
    skipReg (· == ·),
    setByte,
    addByte,
    byDigit entries8,
    skipReg (· != ·),
    setIndex,
    jumpFrom,
    random,
    draw,
    byDigit entriesE,
    byByte entriesF]

def execute : Handler := fun s w => do
  let handler ← primary[family w]?
  handler s w

/-! ## Calls -/

namespace State

def step (s : State) : Outcome := do
  let a ← s.read s.pc
  let b ← s.read (s.pc + 1)
  let (s, error?) ← execute { s with pc := s.pc + 2 } (a.toUInt16 <<< 8 ||| b.toUInt16)
  match error? with
  | none => done s.tick
  | some e => some (s, some e)

def load (s : State) (program : List UInt8) : Outcome := do
  let limit ← sub 4096 0x200
  if limit < program.length then some (s, some (.romTooLarge program.length limit))
  else do
    let stop ← add wordBits 0x200 program.length
    let bytes ← splice s.bytes 0x200 stop program
    done { s with bytes := bytes }

/-- The state before a program is loaded. -/
def fresh (tape : Array UInt8) : Option State := do
  let stop ← add wordBits 0x050 Memory.font.length
  let bytes ← splice (.replicate 4096 0) 0x050 stop Memory.font
  some
    { v := .replicate 16 0
      index := 0
      pc := 0x200
      slots := .replicate 16 0
      depth := 0
      delay := 0
      sound := 0
      bytes := bytes
      pixels := .replicate 2048 false
      keys := .replicate 16 false
      tape := tape
      place := 0 }

end State

/-- What a host can ask of a machine. -/
inductive Call where
  | input (input : Input)
  | register (r : Nat)
  | pixel (x y : Nat)

/-- What it is told. -/
inductive Answer where
  | done (error? : Option Error)
  | byte (b : UInt8)
  | lit (on : Bool)
deriving DecidableEq

namespace State

def handle (s : State) : Input → Outcome
  | .load program => s.load program
  | .setKey key down => do
    let s ← s.setKey key down
    Checked.done s
  | .setKeys keys => Checked.done { s with keys := keys }
  | .step => s.step

def respond (s : State) : Call → Option (State × Answer)
  | .input input => do
    let (s, error?) ← s.handle input
    some (s, .done error?)
  | .register r => do
    let b ← s.reg (r &&& 0xF)
    some (s, .byte b)
  | .pixel x y => do
    let on ← s.pixel x y
    some (s, .lit on)

/-- What becomes of a state over some calls, and the answers. -/
def run (s : State) : List Call → Option (State × List Answer)
  | [] => some (s, [])
  | call :: rest => do
    let (s, answer) ← s.respond call
    let (s, answers) ← s.run rest
    some (s, answer :: answers)

end State

/-! ## The same calls to a machine -/

/-- What a call hands to a machine; to look at it takes nothing. -/
def Call.inputs : Call → List Input
  | .input given => [given]
  | _ => []

def answer (m : Machine) : Call → Answer
  | .input input => .done (m.handle input).2
  | .register r => .byte (m.reg (.ofNat r))
  | .pixel x y => .lit (m.screen.pixel x y)

/-- What a machine answers to some calls. -/
def answers (m : Machine) : List Call → List Answer
  | [] => []
  | call :: rest => answer m call :: answers (m.run call.inputs) rest

end Chip8.Checked
