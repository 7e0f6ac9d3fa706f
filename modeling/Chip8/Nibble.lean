/-!
# Hexadecimal digits

Registers, keys and the kinds of instructions are numbered by hexadecimal digits. A `Bank`
has an entry for each digit; `entry_update` says that setting an entry changes that entry
alone.
-/

namespace Chip8

/-- One hexadecimal digit: the number of a register or of a key. -/
abbrev Nibble := Fin 16

/-- The last hexadecimal digit of a number. -/
def Nibble.ofNat (n : Nat) : Nibble := ⟨n % 16, Nat.mod_lt n (by decide)⟩

/-- All digits in ascending order. -/
def Nibble.all : List Nibble := List.finRange 16

/-- Sixteen entries, one for each digit. -/
abbrev Bank (α : Type) := Vector α 16

namespace Bank

variable {α : Type}

def fill (a : α) : Bank α := Vector.replicate 16 a

def ofFn (f : Nibble → α) : Bank α := Vector.ofFn f

def entry (b : Bank α) (r : Nibble) : α := Vector.get b r

def update (b : Bank α) (r : Nibble) (a : α) : Bank α := Vector.set b r.val a r.isLt

@[simp]
theorem entry_ofFn (f : Nibble → α) (r : Nibble) : (ofFn f).entry r = f r := by
  show (Vector.ofFn f)[r.val] = f r
  exact Vector.getElem_ofFn ..

/-- Only the entry that is replaced changes. -/
theorem entry_update (b : Bank α) (r s : Nibble) (a : α) :
    (b.update r a).entry s = if r = s then a else b.entry s := by
  simp only [entry, update, Vector.get, Fin.ext_iff]
  exact Vector.getElem_set ..

/-- Banks with the same entries are equal. -/
theorem ext_entry {b c : Bank α} (h : ∀ r : Nibble, b.entry r = c.entry r) : b = c :=
  Vector.ext fun k hk => h ⟨k, hk⟩

/-- Of two values for one entry the later one stays. -/
theorem update_update (b : Bank α) (r : Nibble) (first second : α) :
    (b.update r first).update r second = b.update r second := by
  apply ext_entry
  intro s
  simp only [entry_update]
  split <;> rfl

end Bank

end Chip8
