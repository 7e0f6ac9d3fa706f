/-!
# Hexadecimal text

Numbers written with a fixed count of upper-case hexadecimal digits, most significant
digit first. An address is written with `0x` before it and with three digits, or
four where it needs them (`address`).
-/

namespace Chip8.Text.Hex

/-- The upper-case digit of a value below sixteen. -/
def digit (d : Nat) : Char :=
  if d < 10 then Char.ofNat (48 + d) else Char.ofNat (55 + d)

/-- The last `width` hexadecimal digits of `n`. -/
def digits : (width : Nat) → (n : Nat) → List Char
  | 0, _ => []
  | width + 1, n => digits width (n / 16) ++ [digit (n % 16)]

/-- The last `width` hexadecimal digits of `n`, as text. -/
def text (width n : Nat) : String := String.ofList (digits width n)

/-- A 16-bit address: `0x` and at least three digits. -/
def address (a : UInt16) : String :=
  "0x" ++ text (if a.toNat < 4096 then 3 else 4) a.toNat

@[simp]
theorem length_digits (width n : Nat) : (digits width n).length = width := by
  induction width generalizing n with
  | zero => rfl
  | succ width ih => simp [digits, ih]

end Chip8.Text.Hex
