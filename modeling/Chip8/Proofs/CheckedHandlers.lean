import Chip8.Proofs.CheckedLayout

/-!
# Handlers

Every handler of the machine that checks passes its checks on a layout, and leads to the
layout of what the machine makes of the instruction (`Carries`). The sums that could leave
sixteen bits are those of `carries_jumpFrom`, `carries_addReg` and `carries_glyph`, and
each of them has a byte in it. The loops over registers and rows are followed step by step
(`foldlM_storeReg`, `foldlM_loadReg`, `sprite_layout`).
-/

namespace Chip8.Checked

variable {tape : Array UInt8} {m : Machine} {w : Word}

/-- A handler passes its checks, and does what the machine does with an instruction. -/
def Carries (tape : Array UInt8) (h : Handler) (m : Machine) (w : Word)
    (instruction : Instruction) : Prop :=
  h (layout tape m) w.bits
    = some (layout tape (m.execute instruction).1, (m.execute instruction).2)

/-! ## Operands -/

theorem reg_x : (layout tape m).reg (x w.bits) = some (m.reg w.x) := by
  rw [x_eq, reg_layout]

theorem reg_y : (layout tape m).reg (y w.bits) = some (m.reg w.y) := by
  rw [y_eq, reg_layout]

theorem setReg_x (b : UInt8) :
    (layout tape m).setReg (x w.bits) b = some (layout tape (m.setReg w.x b)) := by
  rw [x_eq, setReg_layout]

theorem setReg_flag (b : UInt8) :
    (layout tape m).setReg 0xF b = some (layout tape (m.setReg Machine.flag b)) :=
  setReg_layout m Machine.flag b

theorem both_layout : both (layout tape m) w.bits = some (m.reg w.x, m.reg w.y) := by
  simp only [both, reg_x, reg_y, Option.bind_eq_bind, Option.bind_some]

/-! ## Control -/

theorem carries_clear : Carries tape clear m w .clear := rfl

theorem carries_ret : Carries tape ret m w .ret := by
  show ret (layout tape m) w.bits = some (layout tape m.leave.1, m.leave.2)
  simp only [ret, pop_layout, Option.bind_eq_bind, Option.bind_some]
  cases htop : m.stack.top? with
  | some address =>
    rw [Machine.leave, htop]
    rfl
  | none =>
    rw [Machine.leave, htop, CallStack.pop_of_isEmpty (m.stack.top?_eq_none_iff.mp htop)]
    rfl

theorem carries_jump : Carries tape jump m w (.jump w.nnn) := by
  rw [← nnn_eq]
  rfl

theorem carries_call : Carries tape call m w (.call w.nnn) := by
  show call (layout tape m) w.bits = some (layout tape (m.enter w.nnn).1, (m.enter w.nnn).2)
  have hpush : (layout tape m).push (layout tape m).pc = _ := push_layout m m.pc
  simp only [call, hpush, Option.bind_eq_bind, Option.bind_some]
  cases hfull : m.stack.isFull with
  | true =>
    rw [Machine.enter_of_isFull _ hfull, CallStack.push_of_isFull m.pc hfull]
    rfl
  | false =>
    rw [← nnn_eq, Machine.enter, hfull]
    rfl

theorem carries_skip {h : Handler} {condition : Condition}
    (hskip : h (layout tape m) w.bits
      = done (if m.meets condition then (layout tape m).skip else layout tape m)) :
    Carries tape h m w (.skip condition) := by
  show h (layout tape m) w.bits
    = some (layout tape (if m.meets condition then m.advance else m), none)
  rw [hskip]
  cases m.meets condition <;> rfl

theorem carries_skipByte {test : UInt8 → UInt8 → Bool} {condition : Condition}
    (h : m.meets condition = test (m.reg w.x) w.kk) :
    Carries tape (skipByte test) m w (.skip condition) := by
  apply carries_skip
  simp only [skipByte, reg_x, kk_eq, h, Option.bind_eq_bind, Option.bind_some]

theorem carries_skipReg {test : UInt8 → UInt8 → Bool} {condition : Condition}
    (h : m.meets condition = test (m.reg w.x) (m.reg w.y)) :
    Carries tape (skipReg test) m w (.skip condition) := by
  apply carries_skip
  simp only [skipReg, reg_x, reg_y, h, Option.bind_eq_bind, Option.bind_some]

theorem carries_skipKey {down : Bool} {condition : Condition}
    (h : m.meets condition = (m.keypad.isDown (m.reg w.x) == down)) :
    Carries tape (skipKey down) m w (.skip condition) := by
  apply carries_skip
  simp only [skipKey, reg_x, isDown_layout, h, Option.bind_eq_bind, Option.bind_some]

/-- The sum of a byte and an address of twelve bits has sixteen bits. -/
theorem carries_jumpFrom : Carries tape jumpFrom m w (.jumpFrom w.nnn) := by
  have hreg : (layout tape m).reg 0 = some (m.reg (.ofNat 0)) := reg_layout m (.ofNat 0)
  have hadd : add 16 (m.reg (.ofNat 0)).toNat w.nnn.toNat
      = some ((m.reg (.ofNat 0)).toNat + w.nnn.toNat) := by
    have hbyte := (m.reg (.ofNat 0)).toNat_lt
    have haddress := w.toNat_nnn
    exact add_of_lt (by omega)
  have hsum : UInt16.ofNat ((m.reg (.ofNat 0)).toNat + w.nnn.toNat)
      = (m.reg (.ofNat 0)).toUInt16 + w.nnn := by
    rw [UInt16.ofNat_add, UInt16.ofNat_toNat, UInt16.ofNat_uInt8ToNat]
  simp only [Carries, jumpFrom, hreg, nnn_eq, hadd, hsum, Option.bind_eq_bind,
    Option.bind_some]
  rfl

theorem carries_setIndex : Carries tape setIndex m w (.setIndex w.nnn) := by
  rw [← nnn_eq]
  rfl

/-! ## Registers -/

theorem carries_assign {value : State → UInt16 → Option UInt8} {instruction : Instruction}
    {b : UInt8} (hvalue : value (layout tape m) w.bits = some b)
    (hexecute : m.execute instruction = (m.setReg w.x b, none)) :
    Carries tape (assign value) m w instruction := by
  simp only [Carries, assign, hvalue, setReg_x, hexecute, Option.bind_eq_bind,
    Option.bind_some]
  rfl

theorem carries_setByte : Carries tape setByte m w (.setByte w.x w.kk) :=
  carries_assign (congrArg some (kk_eq w)) rfl

theorem carries_addByte : Carries tape addByte m w (.addByte w.x w.kk) := by
  have hsum : (do
      let b ← first (layout tape m) w.bits
      some (b + kk w.bits)) = some (m.reg w.x + w.kk) := by
    simp only [first, reg_x, kk_eq, Option.bind_eq_bind, Option.bind_some]
  exact carries_assign hsum rfl

theorem carries_combine {operation : UInt8 × UInt8 → UInt8} {kind : Arithmetic}
    (h : m.compute kind w.x w.y = m.setReg w.x (operation (m.reg w.x, m.reg w.y))) :
    Carries tape (combine operation) m w (.compute kind w.x w.y) := by
  have hvalue : (do
      let operands ← both (layout tape m) w.bits
      some (operation operands)) = some (operation (m.reg w.x, m.reg w.y)) := by
    simp only [both_layout, Option.bind_eq_bind, Option.bind_some]
  exact carries_assign hvalue (congrArg (fun after => (after, none)) h)

/-- Two bytes have a sum of sixteen bits. -/
theorem carries_addReg : Carries tape addReg m w (.compute .add w.x w.y) := by
  have hadd : add 16 (m.reg w.x).toNat (m.reg w.y).toNat
      = some ((m.reg w.x).toNat + (m.reg w.y).toNat) := by
    have hx := (m.reg w.x).toNat_lt
    have hy := (m.reg w.y).toNat_lt
    exact add_of_lt (by omega)
  have hsum : UInt8.ofNat ((m.reg w.x).toNat + (m.reg w.y).toNat)
      = m.reg w.x + m.reg w.y := by
    rw [UInt8.ofNat_add, UInt8.ofNat_toNat, UInt8.ofNat_toNat]
  simp only [Carries, addReg, both_layout, hadd, setReg_flag, setReg_x, hsum,
    Option.bind_eq_bind, Option.bind_some]
  rfl

theorem carries_flagged {α : Type} {operands : State → UInt16 → Option α}
    {flag result : α → UInt8} {kind : Arithmetic} (read : Machine → α)
    (hread : ∀ m, operands (layout tape m) w.bits = some (read m))
    (hcompute : m.compute kind w.x w.y =
      (m.setReg Machine.flag (flag (read m))).setReg w.x
        (result (read (m.setReg Machine.flag (flag (read m)))))) :
    Carries tape (flagged operands flag result) m w (.compute kind w.x w.y) := by
  simp only [Carries, flagged, hread, setReg_flag, setReg_x, Option.bind_eq_bind,
    Option.bind_some]
  rw [← hcompute]
  rfl

theorem forall_byte {P : UInt8 → Prop} (h : ∀ k, k < 256 → P (UInt8.ofNat k)) (b : UInt8) :
    P b := by
  have hb := h b.toNat b.toNat_lt
  rwa [UInt8.ofNat_toNat] at hb

/-- A shift cuts its flag and its result out of a byte, where the machine computes them. -/
theorem halve_bits (b : UInt8) : b &&& 1 = (b % 2 == 1).toUInt8 ∧ b >>> 1 = b / 2 := by
  revert b
  exact forall_byte (by decide +kernel)

theorem double_bits (b : UInt8) :
    (b >>> 7) &&& 1 = (decide (128 ≤ b)).toUInt8 ∧ b <<< 1 = b * 2 := by
  revert b
  exact forall_byte (by decide +kernel)

theorem carries_transfer {put : State → UInt8 → State} {instruction : Instruction}
    {after : Machine} (hput : put (layout tape m) (m.reg w.x) = layout tape after)
    (hexecute : m.execute instruction = (after, none)) :
    Carries tape (transfer put) m w instruction := by
  simp only [Carries, transfer, reg_x, hput, hexecute, Option.bind_eq_bind, Option.bind_some]
  rfl

/-- The glyph of a digit, and of any byte, has an address of sixteen bits. -/
theorem carries_glyph : Carries tape glyph m w (.glyph w.x) := by
  have hbyte := (m.reg w.x).toNat_lt
  have hmul : mul 16 5 (m.reg w.x).toNat = some (5 * (m.reg w.x).toNat) :=
    mul_of_lt (by omega)
  have hadd : add 16 0x050 (5 * (m.reg w.x).toNat) = some (0x050 + 5 * (m.reg w.x).toNat) :=
    add_of_lt (by omega)
  have haddress : UInt16.ofNat (0x050 + 5 * (m.reg w.x).toNat)
      = Memory.fontStart + Memory.glyphSize * (m.reg w.x).toUInt16 := by
    rw [UInt16.ofNat_add, UInt16.ofNat_mul, UInt16.ofNat_uInt8ToNat]
    rfl
  simp only [Carries, glyph, reg_x, hmul, hadd, haddress, Option.bind_eq_bind,
    Option.bind_some]
  rfl

theorem carries_random (hsize : tape.size < 2 ^ wordBits) (hfeeds : Feeds tape m) :
    Carries tape random m w (.random w.x w.kk) := by
  simp only [Carries, random, nextByte_layout hsize hfeeds, setReg_x, kk_eq,
    Option.bind_eq_bind, Option.bind_some]
  rfl

/-! ## Keys -/

theorem findIdx?_keys (p : Keypad) : p.keys.toList.findIdx? id = p.lowest?.map Fin.val := by
  have hkeys : p.keys.toList = (List.finRange 16).map p.keys.entry := by
    apply List.ext_getElem
    · simp
    · intro k hk hk'
      simp [Bank.entry, Vector.get]
  rw [hkeys, List.findIdx?_map, Keypad.lowest?, Nibble.all,
    List.findIdx?_eq_map_findFinIdx?_val, List.find?_eq_map_findFinIdx?_getElem,
    Option.map_map]
  congr 1
  funext i
  simp

theorem carries_awaitKey : Carries tape awaitKey m w (.awaitKey w.x) := by
  have hkeys : (layout tape m).keys.toList.findIdx? id = m.keypad.lowest?.map Fin.val :=
    findIdx?_keys m.keypad
  show awaitKey (layout tape m) w.bits = some (layout tape (m.awaitKey w.x), none)
  rw [awaitKey, hkeys, Machine.awaitKey]
  cases m.keypad.lowest? with
  | some key =>
    simp only [Option.map_some, setReg_x, Option.bind_eq_bind, Option.bind_some]
    rfl
  | none => rfl

/-! ## Memory -/

theorem ofNat_succ (a : UInt16) (r : Nat) :
    a + UInt16.ofNat (r + 1) = a + UInt16.ofNat r + 1 := by
  rw [UInt16.ofNat_add, UInt16.add_assoc]
  rfl

theorem carries_decimal : Carries tape decimal m w (.decimal w.x) := by
  have hlast : m.index + 2 = m.index + 1 + 1 := by
    rw [UInt16.add_assoc]
    rfl
  have hindex : (layout tape m).index = m.index := rfl
  simp only [Carries, decimal, reg_x, hindex, hlast, write_layout, Option.bind_eq_bind,
    Option.bind_some]
  rfl

theorem carries_eachReg {body : State → Nat → Option State} {instruction : Instruction}
    {after : Machine}
    (hloop : (List.range (w.x.val + 1)).foldlM body (layout tape m) = some (layout tape after))
    (hexecute : m.execute instruction = (after, none)) :
    Carries tape (eachReg body) m w instruction := by
  simp only [Carries, eachReg, x_eq, hloop, hexecute, Option.bind_eq_bind, Option.bind_some]
  rfl

theorem storeReg_layout (m : Machine) (r : Nibble) :
    storeReg (layout tape m) r.val = some (layout tape { m with
      memory := m.memory.write (m.index + UInt16.ofNat r.val) (m.reg r) }) := by
  have hindex : (layout tape m).index = m.index := rfl
  simp only [storeReg, reg_layout, hindex, write_layout, Option.bind_eq_bind,
    Option.bind_some]

/-- The registers from one on go to memory side by side. -/
theorem foldlM_storeReg (m : Machine) (r count : Nat) (h : r + count ≤ 16) :
    (List.range' r count).foldlM storeReg (layout tape m)
      = some (layout tape { m with
          memory := m.memory.writeBlock (m.index + UInt16.ofNat r)
            ((m.v.toList.drop r).take count) }) := by
  induction count generalizing r m with
  | zero => rfl
  | succ count ih =>
    have hr : r < 16 := by omega
    have hdrop : m.v.toList.drop r = m.reg ⟨r, hr⟩ :: m.v.toList.drop (r + 1) :=
      List.drop_eq_getElem_cons (by simpa using hr)
    -- the first register takes its place, and the block of the others begins behind it
    rw [List.range'_succ, List.foldlM_cons, storeReg_layout m ⟨r, hr⟩, Option.bind_eq_bind,
      Option.bind_some, ih _ (r + 1) (by omega), hdrop, List.take_succ_cons,
      Memory.writeBlock, ofNat_succ]

theorem carries_storeRegs : Carries tape (eachReg storeReg) m w (.store w.x) := by
  have hstore : (List.range' 0 (w.x.val + 1)).foldlM storeReg (layout tape m) = _ :=
    foldlM_storeReg m 0 (w.x.val + 1) (by omega)
  have hzero : m.index + UInt16.ofNat 0 = m.index := UInt16.add_zero m.index
  rw [← List.range_eq_range', List.drop_zero, hzero] at hstore
  exact carries_eachReg hstore rfl

/-- The registers when the first `count` have been read from memory. -/
def loaded (m : Machine) (count : Nat) : Bank UInt8 :=
  .ofFn fun r =>
    if r.val < count then m.memory.read (m.index + UInt16.ofNat r.val) else m.reg r

theorem loaded_zero (m : Machine) : loaded m 0 = m.v :=
  Bank.ext_entry (Bank.entry_ofFn m.reg)

theorem update_loaded (m : Machine) {count : Nat} (h : count < 16) :
    (loaded m count).update ⟨count, h⟩ (m.memory.read (m.index + UInt16.ofNat count))
      = loaded m (count + 1) := by
  apply Bank.ext_entry
  intro r
  rw [Bank.entry_update, loaded, loaded, Bank.entry_ofFn, Bank.entry_ofFn]
  by_cases hr : r.val = count
  · rw [if_pos (Fin.ext hr.symm), if_pos (by omega), hr]
  · rw [if_neg (fun heq => hr (congrArg Fin.val heq).symm)]
    by_cases hlt : r.val < count
    · rw [if_pos hlt, if_pos (by omega)]
    · rw [if_neg hlt, if_neg (by omega)]

theorem foldlM_loadReg (m : Machine) (count : Nat) (h : count ≤ 16) :
    (List.range count).foldlM loadReg (layout tape m)
      = some (layout tape { m with v := loaded m count }) := by
  induction count with
  | zero =>
    rw [loaded_zero]
    rfl
  | succ count ih =>
    have hload : loadReg (layout tape { m with v := loaded m count }) count
        = some (layout tape { m with v := loaded m (count + 1) }) := by
      have hindex : (layout tape { m with v := loaded m count }).index = m.index := rfl
      rw [loadReg, hindex, read_layout, Option.bind_eq_bind, Option.bind_some,
        ← update_loaded m h]
      exact setReg_layout { m with v := loaded m count } ⟨count, h⟩ _
    rw [List.range_succ, List.foldlM_append, ih (by omega), Option.bind_eq_bind,
      Option.bind_some, List.foldlM_cons, hload]
    rfl

theorem carries_loadRegs : Carries tape (eachReg loadReg) m w (.load w.x) := by
  have hloaded : { m with v := loaded m (w.x.val + 1) } = m.loadRegs w.x := by
    simp only [loaded, Machine.loadRegs, Nat.lt_succ_iff]
  have hload : (List.range (w.x.val + 1)).foldlM loadReg (layout tape m) = _ :=
    foldlM_loadReg m (w.x.val + 1) (by omega)
  rw [hloaded] at hload
  exact carries_eachReg hload rfl

/-! ## Sprites -/

/-- A sprite has fifteen rows at most. -/
theorem sprite_layout (m : Machine) (height : Nibble) :
    sprite (layout tape m) height.val = some (m.memory.readBlock m.index height.val) := by
  have hmin : min 15 height.val = height.val := Nat.min_eq_right (by omega)
  have hrows : ((List.range height.val).mapM fun row =>
      (layout tape m).read ((layout tape m).index + UInt16.ofNat row))
      = some (m.memory.readBlock m.index height.val) := by
    simp only [read_layout]
    exact List.mapM_pure
  have hlength : (m.memory.readBlock m.index height.val).length = height.val := by
    simp [Memory.readBlock]
  rw [sprite, hmin, hrows, Option.bind_eq_bind, Option.bind_some, slice,
    if_pos (by simp [hlength]), List.take_left' hlength]

theorem drawRows_screen (m : Machine) (a b : UInt8) (height : Nibble) :
    drawRows (m.screen.pixels, false) (a.toNat % 64) (b.toNat % 32) 0
        (m.memory.readBlock m.index height.val)
      = some (canvas (m.screen.draw a b (m.memory.readBlock m.index height.val))) := by
  have hlength : (m.memory.readBlock m.index height.val).length = height.val := by
    simp [Memory.readBlock]
  apply drawRows_canvas (m.screen, false) (Nat.mod_lt _ (by decide))
  unfold wordBits
  omega

theorem carries_draw : Carries tape draw m w (.draw w.x w.y w.n) := by
  have hpixels : (layout tape (m.setReg Machine.flag 0)).pixels = m.screen.pixels := rfl
  show draw (layout tape m) w.bits = some (layout tape (m.draw w.x w.y w.n), none)
  simp only [draw, both_layout, n_eq, sprite_layout, setReg_flag, hpixels, drawRows_screen,
    canvas, Machine.draw, Option.bind_eq_bind, Option.bind_some]
  rcases m.screen.draw (m.reg w.x) (m.reg w.y) (m.memory.readBlock m.index w.n.val) with
    ⟨screen, collided⟩
  cases collided with
  | true =>
    have hflag : (layout tape { m.setReg Machine.flag 0 with screen := screen }).setReg 0xF 1
        = _ :=
      setReg_flag 1
    exact congrArg (fun s? => s?.bind done) hflag
  | false => rfl

end Chip8.Checked
