import Chip8.Nibble
import Chip8.Text.Hex

/-!
# Instruction words

A program is a sequence of 16-bit words. A word is read through its fields: `family` is
the top hexadecimal digit, `x`, `y` and `n` are the three digits after it, `kk` is the low
byte and `nnn` the low twelve bits.
-/

namespace Chip8

/-- A 16-bit instruction word. -/
structure Word where
  bits : UInt16
deriving DecidableEq

namespace Word

/-- The word of two bytes, the more significant byte first. -/
def ofBytes (high low : UInt8) : Word := ⟨high.toUInt16 * 256 + low.toUInt16⟩

/-- The digit of weight `weight`. -/
def digitAt (w : Word) (weight : Nat) : Nibble := .ofNat (w.bits.toNat / weight)

def family (w : Word) : Nibble := w.digitAt 4096

def x (w : Word) : Nibble := w.digitAt 256

def y (w : Word) : Nibble := w.digitAt 16

def n (w : Word) : Nibble := w.digitAt 1

def kk (w : Word) : UInt8 := w.bits.toUInt8

def nnn (w : Word) : UInt16 := w.bits % 4096

/-- Four upper-case hexadecimal digits. -/
def text (w : Word) : String := Text.Hex.text 4 w.bits.toNat

@[simp]
theorem val_family (w : Word) : w.family.val = w.bits.toNat / 4096 := by
  have := w.bits.toNat_lt
  simp only [family, digitAt, Nibble.ofNat]
  omega

@[simp]
theorem val_x (w : Word) : w.x.val = w.bits.toNat / 256 % 16 := rfl

@[simp]
theorem val_y (w : Word) : w.y.val = w.bits.toNat / 16 % 16 := rfl

@[simp]
theorem val_n (w : Word) : w.n.val = w.bits.toNat % 16 := by
  simp [n, digitAt, Nibble.ofNat]

@[simp]
theorem toNat_kk (w : Word) : w.kk.toNat = w.bits.toNat % 256 := by
  simp [kk]

@[simp]
theorem toNat_nnn (w : Word) : w.nnn.toNat = w.bits.toNat % 4096 := by
  simp [nnn]

theorem family_eq_iff (w : Word) (digit : Nibble) :
    w.family = digit ↔ w.bits.toNat / 4096 = digit.val := by
  rw [Fin.ext_iff, val_family]

theorem n_eq_iff (w : Word) (digit : Nibble) :
    w.n = digit ↔ w.bits.toNat % 16 = digit.val := by
  rw [Fin.ext_iff, val_n]

theorem kk_eq_iff (w : Word) (byte : UInt8) :
    w.kk = byte ↔ w.bits.toNat % 256 = byte.toNat := by
  rw [← UInt8.toNat_inj, toNat_kk]

/-- The number of a word is its high byte times 256 plus its low byte. -/
theorem toNat_bits_ofBytes (high low : UInt8) :
    (ofBytes high low).bits.toNat = high.toNat * 256 + low.toNat := by
  have := high.toNat_lt
  have := low.toNat_lt
  simp only [ofBytes, UInt16.toNat_add, UInt16.toNat_mul, UInt8.toNat_toUInt16]
  simp only [UInt16.reduceToNat]
  omega

end Word

end Chip8
