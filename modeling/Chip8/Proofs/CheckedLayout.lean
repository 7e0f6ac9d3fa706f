import Chip8.Proofs.Checked
import Mathlib.Data.Nat.Bitwise

/-!
# Layouts in plain numbers

A machine that uses a list of random bytes has a `layout` in plain numbers. On a layout
every access passes its check: the fields of a word are below 16 (`upper_eq`, `lower_eq`),
addresses are cut to twelve bits (`toNat_and_address`), a slot is below 16 (`push_layout`,
`pop_layout`), the place of a pixel below 2048 (`place_lt`), and the place in a list that
has bytes inside it (`nextByte_layout`). Drawing only comes to pixels on the screen
(`drawRows_canvas`).
-/

namespace Chip8.Checked

/-! ## Operations that pass -/

theorem add_of_lt {bits a b : Nat} (h : a + b < 2 ^ bits) :
    add bits a b = some (a + b) := if_pos h

theorem mul_of_lt {bits a b : Nat} (h : a * b < 2 ^ bits) :
    mul bits a b = some (a * b) := if_pos h

theorem store_of_lt {α : Type} {size i : Nat} (table : Vector α size) (h : i < size) (a : α) :
    store table i a = some (table.set i a h) := dif_pos h

theorem getElem?_entry {α : Type} (b : Bank α) (r : Nibble) : b[r.val]? = some (b.entry r) :=
  Vector.getElem?_eq_getElem r.isLt

theorem store_entry {α : Type} (b : Bank α) (r : Nibble) (a : α) :
    store b r.val a = some (b.update r a) := dif_pos r.isLt

/-! ## Fields -/

theorem lower_eq (b : UInt8) : lower b = b.toNat % 16 := by
  rw [lower, UInt8.toNat_and]
  exact Nat.and_two_pow_sub_one_eq_mod b.toNat 4

theorem upper_eq (b : UInt8) : upper b = b.toNat / 16 := by
  have hlt := b.toNat_lt
  have hshift : (b >>> 4).toNat = b.toNat / 16 := by
    rw [UInt8.toNat_shiftRight]
    exact Nat.shiftRight_eq_div_pow b.toNat 4
  have hlower := lower_eq (b >>> 4)
  rw [hshift] at hlower
  rw [upper]
  exact hlower.trans (Nat.mod_eq_of_lt (by omega))

theorem toNat_highByte (w : UInt16) : (highByte w).toNat = w.toNat / 256 := by
  have hlt := w.toNat_lt
  have hshift : (w >>> 8).toNat = w.toNat / 256 := by
    rw [UInt16.toNat_shiftRight]
    exact Nat.shiftRight_eq_div_pow w.toNat 8
  rw [highByte, UInt16.toNat_toUInt8, hshift]
  omega

theorem kk_eq (w : Word) : kk w.bits = w.kk := by
  apply UInt8.toNat_inj.mp
  have hmask : (w.bits &&& 0xFF).toNat = w.bits.toNat % 256 := by
    rw [UInt16.toNat_and]
    exact Nat.and_two_pow_sub_one_eq_mod w.bits.toNat 8
  rw [kk, UInt16.toNat_toUInt8, hmask, Word.toNat_kk]
  omega

theorem toNat_and_address (a : UInt16) : (a &&& 0xFFF).toNat = a.toNat % 4096 := by
  rw [UInt16.toNat_and]
  exact Nat.and_two_pow_sub_one_eq_mod a.toNat 12

theorem nnn_eq (w : Word) : nnn w.bits = w.nnn := by
  apply UInt16.toNat_inj.mp
  rw [nnn, toNat_and_address, Word.toNat_nnn]

theorem family_eq (w : Word) : family w.bits = w.family.val := by
  rw [family, upper_eq, toNat_highByte, Word.val_family, Nat.div_div_eq_div_mul]

theorem x_eq (w : Word) : x w.bits = w.x.val := by
  rw [x, lower_eq, toNat_highByte, Word.val_x]

theorem y_eq (w : Word) : y w.bits = w.y.val := by
  rw [y, upper_eq, kk_eq, Word.toNat_kk, Word.val_y]
  omega

theorem n_eq (w : Word) : n w.bits = w.n.val := by
  rw [n, lower_eq, kk_eq, Word.toNat_kk, Word.val_n]
  omega

theorem ofBytes_eq (high low : UInt8) :
    high.toUInt16 <<< 8 ||| low.toUInt16 = (Word.ofBytes high low).bits := by
  have hhigh := high.toNat_lt
  apply UInt16.toNat_inj.mp
  have hshift : (high.toUInt16 <<< 8).toNat = high.toNat <<< 8 := by
    rw [UInt16.toNat_shiftLeft, UInt8.toNat_toUInt16]
    apply Nat.mod_eq_of_lt
    rw [Nat.shiftLeft_eq]
    show high.toNat * 2 ^ 8 < 65536
    omega
  rw [UInt16.toNat_or, hshift, UInt8.toNat_toUInt16, Word.toNat_bits_ofBytes,
    ← Nat.shiftLeft_add_eq_or_of_lt low.toNat_lt, Nat.shiftLeft_eq]

/-! ## Layouts -/

/-- The state of a machine that uses a list of random bytes. -/
def layout (tape : Array UInt8) (m : Machine) : State where
  v := m.v
  index := m.index
  pc := m.pc
  slots := m.stack.slots
  depth := m.stack.depth.val
  delay := m.delay
  sound := m.sound
  bytes := m.memory.bytes
  pixels := m.screen.pixels
  keys := m.keypad.keys
  tape := tape
  place := m.random.used % max tape.size 1

variable {tape : Array UInt8}

theorem depth_layout (m : Machine) : (layout tape m).depth = m.stack.depth.val := rfl

theorem tape_layout (m : Machine) : (layout tape m).tape = tape := rfl

theorem reg_layout (m : Machine) (r : Nibble) : (layout tape m).reg r.val = some (m.reg r) :=
  getElem?_entry m.v r

theorem setReg_layout (m : Machine) (r : Nibble) (b : UInt8) :
    (layout tape m).setReg r.val b = some (layout tape (m.setReg r b)) := by
  rw [State.setReg]
  show (store m.v r.val b).bind _ = _
  rw [store_entry]
  rfl

theorem read_layout (m : Machine) (a : UInt16) :
    (layout tape m).read a = some (m.memory.read a) := by
  rw [State.read, toNat_and_address]
  exact Vector.getElem?_eq_getElem (Memory.position a).isLt

theorem write_layout (m : Machine) (a : UInt16) (b : UInt8) :
    (layout tape m).write a b
      = some (layout tape { m with memory := m.memory.write a b }) := by
  rw [State.write, toNat_and_address]
  show (store m.memory.bytes (Memory.position a).val b).bind _ = _
  rw [store_of_lt _ (Memory.position a).isLt]
  rfl

theorem isDown_layout (m : Machine) (k : UInt8) :
    (layout tape m).isDown k = some (m.keypad.isDown k) := by
  rw [State.isDown, lower_eq]
  exact getElem?_entry m.keypad.keys (Keypad.key k)

theorem setKey_layout (m : Machine) (k : UInt8) (down : Bool) :
    (layout tape m).setKey k down = some (layout tape (m.setKey k down)) := by
  rw [State.setKey, lower_eq]
  show (store m.keypad.keys (Keypad.key k).val down).bind _ = _
  rw [store_entry]
  rfl

/-- A slot that is taken has a number below 16. -/
theorem push_layout (m : Machine) (a : UInt16) :
    (layout tape m).push a =
      some (layout tape { m with stack := m.stack.push a }, !m.stack.isFull) := by
  cases hfull : m.stack.isFull with
  | true =>
    have hdepth : m.stack.depth.val = 16 := by
      simpa only [CallStack.isFull, beq_iff_eq] using hfull
    rw [State.push, depth_layout, if_pos (Nat.le_of_eq hdepth.symm),
      CallStack.push_of_isFull a hfull]
    rfl
  | false =>
    have hdepth : m.stack.depth.val < 16 := m.stack.isFull_eq_false_iff.mp hfull
    have hstore := store_of_lt m.stack.slots hdepth a
    have hadd : add wordBits m.stack.depth.val 1 = some (m.stack.depth.val + 1) :=
      add_of_lt (by unfold wordBits; omega)
    rw [State.push, depth_layout, if_neg (Nat.not_le.mpr hdepth)]
    simp only [layout, hstore, hadd, Option.bind_eq_bind, Option.bind_some]
    rw [CallStack.push, dif_pos hdepth]
    rfl

/-- Not every state passes: a depth of more than 16 has no slot to give back. -/
theorem pop_eq_none_iff (s : State) : s.pop = none ↔ 16 < s.depth := by
  unfold State.pop
  by_cases hdepth : s.depth = 0
  · rw [if_pos hdepth]
    simp [hdepth]
  · have hsub : sub s.depth 1 = some (s.depth - 1) := if_pos (Nat.pos_of_ne_zero hdepth)
    rw [if_neg hdepth, hsub, Option.bind_eq_bind, Option.bind_some]
    cases hslot : s.slots[s.depth - 1]? with
    | some a =>
      have hlt : s.depth - 1 < 16 := (Vector.getElem?_eq_some_iff.mp hslot).1
      simp
      omega
    | none =>
      have hle : 16 ≤ s.depth - 1 := Vector.getElem?_eq_none_iff.mp hslot
      simp
      omega

/-- A slot that is given back has a number below 16. -/
theorem pop_layout (m : Machine) :
    (layout tape m).pop
      = some (layout tape { m with stack := m.stack.pop }, m.stack.top?) := by
  cases hempty : m.stack.isEmpty with
  | true =>
    have hdepth : m.stack.depth.val = 0 := by
      simpa only [CallStack.isEmpty, beq_iff_eq] using hempty
    have htop : m.stack.top? = none := m.stack.top?_eq_none_iff.mpr hempty
    rw [State.pop, depth_layout, if_pos hdepth, htop, CallStack.pop_of_isEmpty hempty]
  | false =>
    have hlt := m.stack.depth.isLt
    have hdepth : 0 < m.stack.depth.val := by
      have hne : m.stack.depth.val ≠ 0 := by simpa [CallStack.isEmpty] using hempty
      omega
    have hsub : sub m.stack.depth.val 1 = some (m.stack.depth.val - 1) := if_pos hdepth
    have hslot : m.stack.slots[m.stack.depth.val - 1]?
        = some m.stack.slots[m.stack.depth.val - 1] :=
      Vector.getElem?_eq_getElem (by omega)
    rw [State.pop, depth_layout, if_neg (Nat.ne_of_gt hdepth)]
    simp only [layout, hsub, hslot, Option.bind_eq_bind, Option.bind_some]
    rw [CallStack.top?, dif_pos hdepth]
    rfl

/-- The random bytes of a machine are those of a list. -/
def Feeds (tape : Array UInt8) (m : Machine) : Prop :=
  m.random.byteAt = (RandomBytes.cycle tape).byteAt

/-- The place stays inside a list that has bytes, and at zero in one that has none. -/
theorem nextByte_layout {m : Machine} (hsize : tape.size < 2 ^ wordBits) (h : Feeds tape m) :
    (layout tape m).nextByte =
      some (layout tape { m with random := m.random.skip 1 }, m.random.peek) := by
  have hpeek : m.random.peek = tape.getD (m.random.used % tape.size) 0 := by
    rw [RandomBytes.peek, h]
    rfl
  by_cases hnone : tape.size = 0
  · have hempty : tape = #[] := Array.eq_empty_of_size_eq_zero hnone
    subst hempty
    -- the place is a remainder modulo one here
    rw [State.nextByte, tape_layout, if_pos hnone, hpeek]
    simp [layout, RandomBytes.skip, Nat.mod_one]
  · have hmax : max tape.size 1 = tape.size := Nat.max_eq_left (Nat.pos_of_ne_zero hnone)
    have hplace : m.random.used % tape.size < tape.size :=
      Nat.mod_lt _ (Nat.pos_of_ne_zero hnone)
    have hget : tape[m.random.used % tape.size]? = some m.random.peek := by
      rw [hpeek, Array.getElem?_eq_getElem hplace, Array.getD, dif_pos hplace]
      rfl
    have hadd : add wordBits (m.random.used % tape.size) 1
        = some (m.random.used % tape.size + 1) := add_of_lt (by omega)
    have hrem : rem (m.random.used % tape.size + 1) tape.size
        = some ((m.random.used + 1) % tape.size) := by
      rw [rem, if_neg hnone, Nat.mod_add_mod]
    rw [State.nextByte, tape_layout, if_neg hnone]
    simp only [layout, hmax, hget, hadd, hrem, Option.bind_eq_bind, Option.bind_some,
      RandomBytes.skip]

/-- The place of a pixel on the screen is below 2048. -/
theorem place_lt {x y : Nat} (hx : x < 64) (hy : y < 32) : y * 64 + x < 2048 := by omega

theorem place_checked {x y : Nat} (hx : x < 64) (hy : y < 32) :
    mul wordBits y 64 = some (y * 64) ∧ add wordBits (y * 64) x = some (y * 64 + x) := by
  have hlt : y * 64 + x < 2 ^ wordBits := by
    unfold wordBits
    omega
  exact ⟨mul_of_lt (by omega), add_of_lt hlt⟩

theorem pixel_layout (m : Machine) (x y : Nat) :
    (layout tape m).pixel x y = some (m.screen.pixel x y) := by
  unfold State.pixel Screen.pixel
  split
  · rename_i h
    obtain ⟨hmul, hadd⟩ := place_checked h.1 h.2
    simp only [hmul, hadd, Option.bind_eq_bind, Option.bind_some]
    exact Vector.getElem?_eq_getElem (place_lt h.1 h.2)
  · rfl

/-! ## Drawing -/

/-- The pixels of a screen as they are drawn on. -/
def canvas (p : Screen × Bool) : Canvas := (p.1.pixels, p.2)

theorem turnOver_canvas (p : Screen × Bool) (x : Fin 64) (y : Fin 32) :
    turnOver (canvas p) x.val y.val = some (canvas (Screen.plot p x y)) := by
  obtain ⟨hmul, hadd⟩ := place_checked x.isLt y.isLt
  have hget : p.1.pixels[y.val * 64 + x.val]? = some p.1.pixels[Screen.position x y] :=
    Vector.getElem?_eq_getElem (place_lt x.isLt y.isLt)
  have hstore :=
    store_of_lt p.1.pixels (place_lt x.isLt y.isLt) !p.1.pixels[Screen.position x y]
  simp only [turnOver, canvas, hmul, hadd, hget, hstore, Option.bind_eq_bind,
    Option.bind_some]
  rfl

theorem drawBits_canvas (p : Screen × Bool) {x : Nat} (hx : x < 64) (y : Fin 32) (b : UInt8)
    {columns : List Nat} (hcolumns : ∀ column ∈ columns, column < 8) :
    drawBits (canvas p) x y.val b columns
      = some (canvas (Screen.plotByte p x y b columns)) := by
  induction columns generalizing p with
  | nil => rfl
  | cons column rest ih =>
    obtain ⟨hcolumn, hrest⟩ := List.forall_mem_cons.mp hcolumns
    have hadd : add wordBits x column = some (x + column) :=
      add_of_lt (by unfold wordBits; omega)
    have hshift : shiftRight 0x80 column = some (0x80 >>> UInt8.ofNat column) :=
      if_pos hcolumn
    simp only [drawBits, hadd, Option.bind_eq_bind, Option.bind_some, hshift]
    by_cases hin : x + column < 64
    · rw [if_neg (Nat.not_le.mpr hin), Screen.plotByte, dif_pos hin, ← ih _ hrest]
      have hturn := turnOver_canvas p ⟨x + column, hin⟩ y
      show (if Screen.bit b column then
          (turnOver (canvas p) (x + column) y.val).bind fun c => drawBits c x y.val b rest
        else drawBits (canvas p) x y.val b rest) = _
      cases Screen.bit b column with
      | true => rw [if_pos rfl, if_pos rfl, hturn, Option.bind_some]
      | false => rfl
    · rw [if_pos (Nat.not_lt.mp hin), Screen.plotByte, dif_neg hin]

theorem drawRows_canvas (p : Screen × Bool) {x : Nat} (hx : x < 64) (y row : Nat)
    {sprite : List UInt8} (hfits : y + row + sprite.length < 2 ^ wordBits) :
    drawRows (canvas p) x y row sprite
      = some (canvas (Screen.plotRows p x (y + row) sprite)) := by
  induction sprite generalizing p row with
  | nil => rfl
  | cons b rest ih =>
    rw [List.length_cons] at hfits
    have hadd : add wordBits y row = some (y + row) := add_of_lt (by omega)
    simp only [drawRows, hadd, Option.bind_eq_bind, Option.bind_some]
    by_cases hin : y + row < 32
    · have hcolumns : ∀ column ∈ List.range 8, column < 8 := fun _ => List.mem_range.mp
      have hbits := drawBits_canvas p hx ⟨y + row, hin⟩ b hcolumns
      rw [if_neg (Nat.not_le.mpr hin), Screen.plotRows, dif_pos hin, hbits, Option.bind_some]
      exact ih _ (row + 1) (by omega)
    · rw [if_pos (Nat.not_lt.mp hin), Screen.plotRows, dif_neg hin]

end Chip8.Checked
