import Chip8.Word

/-!
# Instructions

What a word tells the machine to do, with its operands taken out. `decode?` reads a word:
the top digit tells the kind of instruction, and words that begin with 0, 8 or E are told
apart by their last digit, those that begin with F by their low byte. The digits in
between do not matter where they are no operand. Words outside this language are no
instructions.
-/

namespace Chip8

/-- Operations on two registers; the first one takes the result. -/
inductive Arithmetic where
  | copy
  | or
  | and
  | xor
  | add
  | subtract
  | halve
  | subtractFrom
  | double
deriving DecidableEq

/-- When an instruction passes over the one after it. -/
inductive Condition where
  | equalsByte (x : Nibble) (byte : UInt8)
  | differsByte (x : Nibble) (byte : UInt8)
  | equals (x y : Nibble)
  | differs (x y : Nibble)
  | keyDown (x : Nibble)
  | keyUp (x : Nibble)
deriving DecidableEq

/-- The instructions of the machine. -/
inductive Instruction where
  | clear
  | ret
  | jump (target : UInt16)
  /-- Goes to an address and remembers where to come back to. -/
  | call (target : UInt16)
  | skip (condition : Condition)
  | setByte (x : Nibble) (byte : UInt8)
  /-- Adds to a register and leaves the flag alone. -/
  | addByte (x : Nibble) (byte : UInt8)
  | compute (operation : Arithmetic) (x y : Nibble)
  | setIndex (address : UInt16)
  /-- Goes to an address that register 0 is added to. -/
  | jumpFrom (base : UInt16)
  /-- Sets a register to the bits of a random byte that a mask selects. -/
  | random (x : Nibble) (mask : UInt8)
  /-- Draws the sprite of the given height that the index points at. -/
  | draw (x y height : Nibble)
  | readDelay (x : Nibble)
  /-- Waits until a key is down and reads its number. -/
  | awaitKey (x : Nibble)
  | setDelay (x : Nibble)
  | setSound (x : Nibble)
  | addIndex (x : Nibble)
  /-- Points the index at the glyph of a digit. -/
  | glyph (x : Nibble)
  /-- Writes the three decimal digits of a register. -/
  | decimal (x : Nibble)
  /-- Writes the registers up to one. -/
  | store (last : Nibble)
  /-- Reads the registers up to one. -/
  | load (last : Nibble)
deriving DecidableEq

namespace Instruction

/-- The operation that the last digit of a word stands for. -/
def arithmetic? (n : Nibble) : Option Arithmetic :=
  match n with
  | 0x0 => some .copy
  | 0x1 => some .or
  | 0x2 => some .and
  | 0x3 => some .xor
  | 0x4 => some .add
  | 0x5 => some .subtract
  | 0x6 => some .halve
  | 0x7 => some .subtractFrom
  | 0xE => some .double
  | _ => none

/-- The instruction on register `x` that a low byte stands for. -/
def special? (x : Nibble) (kk : UInt8) : Option Instruction :=
  match kk with
  | 0x07 => some (.readDelay x)
  | 0x0A => some (.awaitKey x)
  | 0x15 => some (.setDelay x)
  | 0x18 => some (.setSound x)
  | 0x1E => some (.addIndex x)
  | 0x29 => some (.glyph x)
  | 0x33 => some (.decimal x)
  | 0x55 => some (.store x)
  | 0x65 => some (.load x)
  | _ => none

/-- The instruction that a word stands for. -/
def decode? (w : Word) : Option Instruction :=
  match w.family with
  | 0x0 =>
    match w.n with
    | 0x0 => some .clear
    | 0xE => some .ret
    | _ => none
  | 0x1 => some (.jump w.nnn)
  | 0x2 => some (.call w.nnn)
  | 0x3 => some (.skip (.equalsByte w.x w.kk))
  | 0x4 => some (.skip (.differsByte w.x w.kk))
  | 0x5 => some (.skip (.equals w.x w.y))
  | 0x6 => some (.setByte w.x w.kk)
  | 0x7 => some (.addByte w.x w.kk)
  | 0x8 => (arithmetic? w.n).map fun operation => .compute operation w.x w.y
  | 0x9 => some (.skip (.differs w.x w.y))
  | 0xA => some (.setIndex w.nnn)
  | 0xB => some (.jumpFrom w.nnn)
  | 0xC => some (.random w.x w.kk)
  | 0xD => some (.draw w.x w.y w.n)
  | 0xE =>
    match w.n with
    | 0xE => some (.skip (.keyDown w.x))
    | 0x1 => some (.skip (.keyUp w.x))
    | _ => none
  | _ => special? w.x w.kk

/-- The top digit of the words that stand for an instruction. -/
def family : Instruction → Nibble
  | clear | ret => 0x0
  | jump _ => 0x1
  | call _ => 0x2
  | skip (.equalsByte _ _) => 0x3
  | skip (.differsByte _ _) => 0x4
  | skip (.equals _ _) => 0x5
  | setByte _ _ => 0x6
  | addByte _ _ => 0x7
  | compute _ _ _ => 0x8
  | skip (.differs _ _) => 0x9
  | setIndex _ => 0xA
  | jumpFrom _ => 0xB
  | random _ _ => 0xC
  | draw _ _ _ => 0xD
  | skip (.keyDown _) | skip (.keyUp _) => 0xE
  | readDelay _ | awaitKey _ | setDelay _ | setSound _ | addIndex _ | glyph _ | decimal _
  | store _ | load _ => 0xF

theorem family_of_special? {x : Nibble} {kk : UInt8} {instruction : Instruction}
    (h : special? x kk = some instruction) : instruction.family = 0xF := by
  unfold special? at h
  split at h <;> cases h <;> rfl

/-- A word stands for an instruction of its own family. -/
theorem family_of_decode? {w : Word} {instruction : Instruction}
    (h : decode? w = some instruction) : w.family = instruction.family := by
  unfold decode? at h
  split at h
  case h_1 hfamily => split at h <;> cases h <;> exact hfamily
  case h_9 hfamily =>
    obtain ⟨operation, -, rfl⟩ := Option.map_eq_some_iff.mp h
    exact hfamily
  case h_15 hfamily => split at h <;> cases h <;> exact hfamily
  case h_16 =>
    rw [family_of_special? h]
    -- the digits 0 to E have been split off
    simp only [Fin.ext_iff, imp_false] at *
    have := w.family.isLt
    omega
  all_goals
    cases h
    assumption

/-- The digits in the middle of a word that clears do not matter. -/
theorem decode?_eq_clear_iff (w : Word) :
    decode? w = some .clear ↔ w.family = 0x0 ∧ w.n = 0x0 := by
  constructor
  · intro h
    have hfamily : w.family = 0x0 := family_of_decode? h
    simp only [decode?, hfamily] at h
    split at h
    case h_1 hn => exact ⟨hfamily, hn⟩
    all_goals cases h
  · rintro ⟨hfamily, hn⟩
    simp only [decode?, hfamily, hn]

theorem decode?_eq_ret_iff (w : Word) :
    decode? w = some .ret ↔ w.family = 0x0 ∧ w.n = 0xE := by
  constructor
  · intro h
    have hfamily : w.family = 0x0 := family_of_decode? h
    simp only [decode?, hfamily] at h
    split at h
    case h_2 hn => exact ⟨hfamily, hn⟩
    all_goals cases h
  · rintro ⟨hfamily, hn⟩
    simp only [decode?, hfamily, hn]

/-- The top digit of the words that stand for an instruction on an address, and the
address. -/
def addressed? : Instruction → Option (Nibble × UInt16)
  | jump target => some (0x1, target)
  | call target => some (0x2, target)
  | setIndex address => some (0xA, address)
  | jumpFrom base => some (0xB, base)
  | _ => none

theorem decode?_eq_some_iff_of_addressed {instruction : Instruction} {digit : Nibble}
    {address : UInt16} (h : instruction.addressed? = some (digit, address)) (w : Word) :
    decode? w = some instruction ↔ w.family = digit ∧ address = w.nnn := by
  cases instruction with
  | jump a | call a | setIndex a | jumpFrom a =>
    cases h
    constructor
    · intro hdecode
      have hfamily := family_of_decode? hdecode
      simp only [family] at hfamily
      simp only [decode?, hfamily] at hdecode
      cases hdecode
      exact ⟨hfamily, rfl⟩
    · rintro ⟨hfamily, rfl⟩
      simp only [decode?, hfamily]
  | _ => cases h

theorem decode?_eq_call_iff (w : Word) (target : UInt16) :
    decode? w = some (.call target) ↔ w.family = 0x2 ∧ target = w.nnn :=
  decode?_eq_some_iff_of_addressed rfl w

theorem decode?_eq_draw_iff (w : Word) (x y height : Nibble) :
    decode? w = some (.draw x y height)
      ↔ w.family = 0xD ∧ x = w.x ∧ y = w.y ∧ height = w.n := by
  constructor
  · intro h
    have hfamily : w.family = 0xD := family_of_decode? h
    simp only [decode?, hfamily, Option.some.injEq, draw.injEq] at h
    exact ⟨hfamily, h.1.symm, h.2.1.symm, h.2.2.symm⟩
  · rintro ⟨hfamily, rfl, rfl, rfl⟩
    simp only [decode?, hfamily]

/-- The top digit of the words that stand for an instruction on a register and a byte, the
register and the byte. -/
def valued? : Instruction → Option (Nibble × Nibble × UInt8)
  | skip (.equalsByte x byte) => some (0x3, x, byte)
  | skip (.differsByte x byte) => some (0x4, x, byte)
  | setByte x byte => some (0x6, x, byte)
  | addByte x byte => some (0x7, x, byte)
  | random x mask => some (0xC, x, mask)
  | _ => none

theorem decode?_eq_some_iff_of_valued {instruction : Instruction} {digit x : Nibble}
    {byte : UInt8} (h : instruction.valued? = some (digit, x, byte)) (w : Word) :
    decode? w = some instruction ↔ w.family = digit ∧ x = w.x ∧ byte = w.kk := by
  unfold valued? at h
  split at h
  case h_6 => cases h
  all_goals
    cases h
    constructor
    · intro hdecode
      have hfamily := family_of_decode? hdecode
      simp only [family] at hfamily
      simp only [decode?, hfamily] at hdecode
      cases hdecode
      exact ⟨hfamily, rfl, rfl⟩
    · rintro ⟨hfamily, rfl, rfl⟩
      simp only [decode?, hfamily]

theorem decode?_eq_random_iff (w : Word) (x : Nibble) (mask : UInt8) :
    decode? w = some (.random x mask) ↔ w.family = 0xC ∧ x = w.x ∧ mask = w.kk :=
  decode?_eq_some_iff_of_valued rfl w

/-- The top digit of the words that stand for a skip on two registers, and the registers. -/
def paired? : Condition → Option (Nibble × Nibble × Nibble)
  | .equals x y => some (0x5, x, y)
  | .differs x y => some (0x9, x, y)
  | _ => none

/-- The last digit of these words does not matter. -/
theorem decode?_eq_skip_iff_of_paired {condition : Condition} {digit x y : Nibble}
    (h : paired? condition = some (digit, x, y)) (w : Word) :
    decode? w = some (.skip condition) ↔ w.family = digit ∧ x = w.x ∧ y = w.y := by
  cases condition with
  | equals a b | differs a b =>
    cases h
    constructor
    · intro hdecode
      have hfamily := family_of_decode? hdecode
      simp only [family] at hfamily
      simp only [decode?, hfamily] at hdecode
      cases hdecode
      exact ⟨hfamily, rfl, rfl⟩
    · rintro ⟨hfamily, rfl, rfl⟩
      simp only [decode?, hfamily]
  | _ => cases h

theorem decode?_eq_compute_iff (w : Word) (operation : Arithmetic) (x y : Nibble) :
    decode? w = some (.compute operation x y)
      ↔ w.family = 0x8 ∧ arithmetic? w.n = some operation ∧ x = w.x ∧ y = w.y := by
  constructor
  · intro hdecode
    have hfamily : w.family = 0x8 := family_of_decode? hdecode
    simp only [decode?, hfamily] at hdecode
    obtain ⟨operation', hoperation, hcompute⟩ := Option.map_eq_some_iff.mp hdecode
    cases hcompute
    exact ⟨hfamily, hoperation, rfl, rfl⟩
  · rintro ⟨hfamily, hoperation, rfl, rfl⟩
    simp only [decode?, hfamily, hoperation, Option.map_some]

/-- The register and the last digit of the words of family E that stand for a skip. -/
def keyed? : Condition → Option (Nibble × Nibble)
  | .keyDown x => some (x, 0xE)
  | .keyUp x => some (x, 0x1)
  | _ => none

theorem decode?_eq_skip_iff_of_keyed {condition : Condition} {x last : Nibble}
    (h : keyed? condition = some (x, last)) (w : Word) :
    decode? w = some (.skip condition) ↔ w.family = 0xE ∧ w.n = last ∧ x = w.x := by
  cases condition with
  | keyDown y | keyUp y =>
    cases h
    constructor
    · intro hdecode
      have hfamily : w.family = 0xE := family_of_decode? hdecode
      simp only [decode?, hfamily] at hdecode
      split at hdecode <;> cases hdecode
      rename_i hn
      exact ⟨hfamily, hn, rfl⟩
    · rintro ⟨hfamily, hn, rfl⟩
      simp only [decode?, hfamily, hn]
  | _ => cases h

theorem decode?_eq_special? {w : Word} (h : w.family = 0xF) :
    decode? w = special? w.x w.kk := by
  simp only [decode?, h]

/-- The register and the low byte of the words of family F that stand for an instruction. -/
def coded? : Instruction → Option (Nibble × UInt8)
  | readDelay x => some (x, 0x07)
  | awaitKey x => some (x, 0x0A)
  | setDelay x => some (x, 0x15)
  | setSound x => some (x, 0x18)
  | addIndex x => some (x, 0x1E)
  | glyph x => some (x, 0x29)
  | decimal x => some (x, 0x33)
  | store last => some (last, 0x55)
  | load last => some (last, 0x65)
  | _ => none

theorem special?_eq_some_iff (x : Nibble) (kk : UInt8) (instruction : Instruction) :
    special? x kk = some instruction ↔ instruction.coded? = some (x, kk) := by
  constructor
  · intro h
    unfold special? at h
    split at h <;> cases h <;> rfl
  · intro h
    unfold coded? at h
    split at h <;> cases h <;> rfl

theorem decode?_eq_some_iff_of_coded {instruction : Instruction} {x : Nibble} {kk : UInt8}
    (h : instruction.coded? = some (x, kk)) (w : Word) :
    decode? w = some instruction ↔ w.family = 0xF ∧ w.kk = kk ∧ x = w.x := by
  constructor
  · intro hdecode
    have hfamily : w.family = 0xF := by
      rw [family_of_decode? hdecode]
      exact family_of_special? ((special?_eq_some_iff x kk instruction).mpr h)
    rw [decode?_eq_special? hfamily, special?_eq_some_iff, h] at hdecode
    cases hdecode
    exact ⟨hfamily, rfl, rfl⟩
  · rintro ⟨hfamily, rfl, rfl⟩
    rw [decode?_eq_special? hfamily, special?_eq_some_iff, h]

/-! ## Words that are no instruction -/

theorem arithmetic?_eq_none_iff (n : Nibble) :
    arithmetic? n = none ↔ n ∉ [0x0, 0x1, 0x2, 0x3, 0x4, 0x5, 0x6, 0x7, 0xE] := by
  revert n
  decide

theorem special?_eq_none_iff (x : Nibble) (kk : UInt8) :
    special? x kk = none ↔ kk ∉ [0x07, 0x0A, 0x15, 0x18, 0x1E, 0x29, 0x33, 0x55, 0x65] := by
  unfold special?
  split
  case h_10 => simp_all
  all_goals simp

/-- The words outside the language: their first digit leaves a choice, and they make none. -/
theorem decode?_eq_none_iff (w : Word) :
    decode? w = none
      ↔ (w.family = 0x0 ∧ w.n ∉ [0x0, 0xE])
        ∨ (w.family = 0x8 ∧ w.n ∉ [0x0, 0x1, 0x2, 0x3, 0x4, 0x5, 0x6, 0x7, 0xE])
        ∨ (w.family = 0xE ∧ w.n ∉ [0x1, 0xE])
        ∨ (w.family = 0xF
          ∧ w.kk ∉ [0x07, 0x0A, 0x15, 0x18, 0x1E, 0x29, 0x33, 0x55, 0x65]) := by
  by_cases hF : w.family = 0xF
  · rw [decode?_eq_special? hF, special?_eq_none_iff, hF]
    simp
  · unfold decode?
    split
    -- the families that are told apart by their last digit
    case h_1 hfamily =>
      rw [hfamily]
      split <;> simp_all
    case h_9 hfamily =>
      rw [hfamily, Option.map_eq_none_iff, arithmetic?_eq_none_iff]
      simp
    case h_15 hfamily =>
      rw [hfamily]
      split <;> simp_all
    case h_16 =>
      simp only [Fin.ext_iff, imp_false] at *
      have := w.family.isLt
      omega
    -- the families in which every word is an instruction
    all_goals
      rename_i hfamily
      rw [hfamily]
      simp

end Instruction

end Chip8
