import Chip8.Nibble

/-!
# The keypad

Sixteen keys, numbered by the hexadecimal digits. A key is named by a byte of which the
low digit counts.
-/

namespace Chip8

structure Keypad where
  keys : Bank Bool
deriving DecidableEq

namespace Keypad

/-- The keypad with every key up. -/
def released : Keypad := ⟨.fill false⟩

def key (k : UInt8) : Nibble := .ofNat k.toNat

def isDown (p : Keypad) (k : UInt8) : Bool := p.keys.entry (key k)

def set (p : Keypad) (k : UInt8) (down : Bool) : Keypad :=
  ⟨p.keys.update (key k) down⟩

def lowest? (p : Keypad) : Option Nibble := Nibble.all.find? p.keys.entry

/-- Keypads with the same keys down are equal. -/
theorem ext_key {p q : Keypad} (h : ∀ k : Nibble, p.keys.entry k = q.keys.entry k) :
    p = q := by
  cases p
  cases q
  exact congrArg mk (Bank.ext_entry h)

theorem val_key (k : UInt8) : (key k).val = k.toNat % 16 := rfl

theorem lowest?_eq_none_iff (p : Keypad) :
    p.lowest? = none ↔ ∀ k : Nibble, p.keys.entry k = false := by
  simp [lowest?, Nibble.all]

theorem lowest?_eq_some_iff (p : Keypad) (k : Nibble) :
    p.lowest? = some k ↔ p.keys.entry k = true ∧ ∀ j < k, p.keys.entry j = false := by
  rw [lowest?, List.find?_eq_some_iff_getElem]
  simp only [Nibble.all, List.getElem_finRange, List.length_finRange, Bool.not_eq_eq_eq_not,
    Bool.not_true]
  refine and_congr_right fun _ => ?_
  constructor
  · rintro ⟨i, hi, rfl, hbefore⟩ j hj
    exact hbefore j.val hj
  · intro hbefore
    exact ⟨k.val, k.isLt, rfl, fun j hj => hbefore ⟨j, by omega⟩ hj⟩

end Keypad

end Chip8
