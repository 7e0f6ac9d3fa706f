import Chip8.Error

/-!
# Memory

Memory holds 4096 bytes. Addresses have sixteen bits, of which memory uses the low twelve,
so every address names a byte and blocks that run past the end go on at the start. The
glyphs of the hexadecimal digits stand at `0x050`, programs at `0x200`.

`read_write` and `read_writeBlock` say what is read after a write: a byte at distance `k`
(modulo 4096) from the start of a written block is the block's byte `k`, all others keep
their value.
-/

namespace Chip8

/-- The 4096 bytes a program can address. -/
structure Memory where
  bytes : Vector UInt8 4096
deriving DecidableEq

namespace Memory

def size : Nat := 4096

def fontStart : UInt16 := 0x050

/-- The number of bytes, one for each row, of a glyph. -/
def glyphSize : UInt16 := 5

/-- The glyphs of the digits 0 to F, four pixels wide in the upper half of each byte. -/
def font : List UInt8 :=
  [0xF0, 0x90, 0x90, 0x90, 0xF0,
   0x20, 0x60, 0x20, 0x20, 0x70,
   0xF0, 0x10, 0xF0, 0x80, 0xF0,
   0xF0, 0x10, 0xF0, 0x10, 0xF0,
   0x90, 0x90, 0xF0, 0x10, 0x10,
   0xF0, 0x80, 0xF0, 0x10, 0xF0,
   0xF0, 0x80, 0xF0, 0x90, 0xF0,
   0xF0, 0x10, 0x20, 0x40, 0x40,
   0xF0, 0x90, 0xF0, 0x90, 0xF0,
   0xF0, 0x90, 0xF0, 0x10, 0xF0,
   0xF0, 0x90, 0xF0, 0x90, 0x90,
   0xE0, 0x90, 0xE0, 0x90, 0xE0,
   0xF0, 0x80, 0x80, 0x80, 0xF0,
   0xE0, 0x90, 0x90, 0x90, 0xE0,
   0xF0, 0x80, 0xF0, 0x80, 0xF0,
   0xF0, 0x80, 0xF0, 0x80, 0x80]

def programStart : UInt16 := 0x200

/-- The size of the largest program. -/
def programLimit : Nat := size - programStart.toNat

/-- The position of the byte that an address names. -/
def position (a : UInt16) : Fin 4096 := Fin.ofNat 4096 a.toNat

def read (m : Memory) (a : UInt16) : UInt8 := m.bytes[position a]

def write (m : Memory) (a : UInt16) (b : UInt8) : Memory :=
  ⟨m.bytes.set (position a).val b (position a).isLt⟩

/-- The `count` bytes from an address on. -/
def readBlock (m : Memory) (a : UInt16) (count : Nat) : List UInt8 :=
  (List.range count).map fun k => m.read (a + UInt16.ofNat k)

/-- Replaces the bytes from an address on. -/
def writeBlock (m : Memory) (a : UInt16) : List UInt8 → Memory
  | [] => m
  | b :: rest => (m.write a b).writeBlock (a + 1) rest

/-- Zeros, but for the glyphs. -/
def initial : Memory :=
  writeBlock ⟨Vector.replicate 4096 0⟩ fontStart font

/-- Puts a program in its place. A program replaces no more bytes than it has, so the end
of a longer one that was there before stays; one that is too large replaces none. -/
def load (m : Memory) (program : List UInt8) : Except Error Memory :=
  if program.length ≤ programLimit then .ok (m.writeBlock programStart program)
  else .error (.romTooLarge program.length programLimit)

/-- How far after `base` an address comes, going round at 4096. -/
def distance (base a : UInt16) : Nat := (a - base).toNat % 4096

theorem val_position (a : UInt16) : (position a).val = a.toNat % 4096 := rfl

/-- Distance zero means the same byte. -/
theorem distance_eq_zero_iff (base a : UInt16) :
    distance base a = 0 ↔ a.toNat % 4096 = base.toNat % 4096 := by
  have := base.toNat_lt
  simp only [distance, UInt16.toNat_sub]
  omega

theorem distance_add_one (base a : UInt16) :
    distance (base + 1) a = if distance base a = 0 then 4095 else distance base a - 1 := by
  have := base.toNat_lt
  have := a.toNat_lt
  simp only [distance, UInt16.toNat_sub, UInt16.toNat_add, UInt16.reduceToNat]
  split <;> omega

theorem read_congr (m : Memory) {a b : UInt16} (h : a.toNat % 4096 = b.toNat % 4096) :
    m.read a = m.read b := by
  have hpos : position a = position b := Fin.ext h
  simp only [read, hpos]

/-- Blocks that are read go round at the end of memory, and so do their addresses. -/
theorem read_add (m : Memory) (a : UInt16) (k : Nat) :
    m.read (a + UInt16.ofNat k) = m.bytes[(a.toNat + k) % 4096] := by
  have hposition : (position (a + UInt16.ofNat k)).val = (a.toNat + k) % 4096 := by
    simp only [val_position, UInt16.toNat_add, UInt16.toNat_ofNat']
    omega
  simp only [read, Fin.getElem_fin, hposition]

theorem getD_readBlock (m : Memory) (a : UInt16) (count k : Nat) :
    (m.readBlock a count).getD k 0 =
      if k < count then m.bytes[(a.toNat + k) % 4096] else 0 := by
  split
  · rename_i hk
    simp [readBlock, hk, read_add]
  · rename_i hk
    simp [readBlock, hk]

/-- Only the byte written to changes. -/
theorem read_write (m : Memory) (a b : UInt16) (v : UInt8) :
    (m.write a v).read b = if a.toNat % 4096 = b.toNat % 4096 then v else m.read b := by
  simp only [read, write, Fin.getElem_fin, Vector.getElem_set, val_position]

/-- A block replaces the bytes at distance `0`, `1`, … from its start and no others. -/
theorem read_writeBlock (m : Memory) (base a : UInt16) (block : List UInt8)
    (h : block.length ≤ 4096) :
    (m.writeBlock base block).read a = (block[distance base a]?).getD (m.read a) := by
  induction block generalizing m base with
  | nil => rfl
  | cons b rest ih =>
    rw [List.length_cons] at h
    rw [writeBlock, ih _ _ (by omega), read_write, distance_add_one]
    by_cases hd : distance base a = 0
    · have heq := (distance_eq_zero_iff base a).mp hd
      rw [if_pos hd, if_pos heq.symm, hd, List.getElem?_eq_none (by omega)]
      rfl
    · have hne := fun heq => hd ((distance_eq_zero_iff base a).mpr heq)
      rw [if_neg hd, if_neg (fun heq => hne heq.symm)]
      obtain ⟨k, hk⟩ := Nat.exists_eq_succ_of_ne_zero hd
      rw [hk]
      rfl

/-- The bytes of a block, by their numbers, go to the positions from its start on. -/
theorem distance_eq_iff (base : UInt16) {p k : Nat} (hp : p < 4096) (hk : k < 4096) :
    distance base (UInt16.ofNat p) = k ↔ (base.toNat + k) % 4096 = p := by
  have := base.toNat_lt
  simp only [distance, UInt16.toNat_sub, UInt16.toNat_ofNat']
  omega

theorem read_ofNat (m : Memory) {p : Nat} (hp : p < 4096) :
    m.read (UInt16.ofNat p) = m.bytes[p] := by
  have hposition : (position (UInt16.ofNat p)).val = p := by
    rw [val_position, UInt16.toNat_ofNat']
    omega
  simp only [read, Fin.getElem_fin, hposition]

theorem bytes_writeBlock_of_mem (m : Memory) {base : UInt16} {block : List UInt8} {p k : Nat}
    {b : UInt8} (h : block.length ≤ 4096) (hp : p < 4096) (hk : block[k]? = some b)
    (hplace : (base.toNat + k) % 4096 = p) : (m.writeBlock base block).bytes[p] = b := by
  have hlt : k < block.length := (List.getElem?_eq_some_iff.mp hk).1
  have hdistance := (distance_eq_iff base hp (by omega)).mpr hplace
  rw [← read_ofNat _ hp, read_writeBlock _ _ _ _ h, hdistance, hk]
  rfl

theorem bytes_writeBlock_of_not_mem (m : Memory) {base : UInt16} {block : List UInt8}
    {p : Nat} (h : block.length ≤ 4096) (hp : p < 4096)
    (hplace : ∀ k, k < block.length → (base.toNat + k) % 4096 ≠ p) :
    (m.writeBlock base block).bytes[p] = m.bytes[p] := by
  have hout : block.length ≤ distance base (UInt16.ofNat p) := by
    rw [← Nat.not_lt]
    intro hlt
    exact hplace _ hlt ((distance_eq_iff base hp (by omega)).mp rfl)
  rw [← read_ofNat _ hp, read_writeBlock _ _ _ _ h, List.getElem?_eq_none hout,
    read_ofNat _ hp]
  rfl

/-- Memory is zero but for the glyphs. -/
theorem bytes_initial {p : Nat} (hp : p < 4096) :
    initial.bytes[p] = if 0x050 ≤ p ∧ p < 0x0A0 then font.getD (p - 0x050) 0 else 0 := by
  have hlength : font.length = 80 := rfl
  have hstart : fontStart.toNat = 0x050 := rfl
  unfold initial
  split
  · rename_i hfont
    have hk : p - 0x050 < font.length := by omega
    have hplace : (fontStart.toNat + (p - 0x050)) % 4096 = p := by omega
    rw [List.getD_eq_getElem?_getD, List.getElem?_eq_getElem hk]
    exact bytes_writeBlock_of_mem _ (by omega) hp (List.getElem?_eq_getElem hk) hplace
  · rename_i hfont
    rw [bytes_writeBlock_of_not_mem _ (by omega) hp]
    · exact Vector.getElem_replicate hp
    · intro k hk
      rw [hstart]
      omega

end Memory

end Chip8
