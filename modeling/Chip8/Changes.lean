import Chip8.Memory
import Chip8.Screen

/-!
# What has changed

Two states of memory differ in some bytes. Neighbouring bytes that differ form a `Patch`;
between two patches there is a byte that is the same in both. Two states of the screen
differ in some rows.
-/

namespace Chip8

/-- Bytes to be found from a position on. -/
structure Patch where
  start : Nat
  bytes : List UInt8
deriving DecidableEq

namespace Patch

/-- Adds a byte in front of all patches, as a part of the first one if that begins right
after. -/
def prepend (position : Nat) (b : UInt8) : List Patch → List Patch
  | [] => [⟨position, [b]⟩]
  | first :: rest =>
    if first.start = position + 1 then ⟨position, b :: first.bytes⟩ :: rest
    else ⟨position, [b]⟩ :: first :: rest

end Patch

namespace Memory

/-- The patches before position `n`, in front of those already found. -/
def changesBelow (old new : Memory) (n : Nat) (h : n ≤ 4096) (found : List Patch) :
    List Patch :=
  match n with
  | 0 => found
  | n + 1 =>
    changesBelow old new n (by omega)
      (if old.bytes[n] = new.bytes[n] then found else Patch.prepend n new.bytes[n] found)

/-- The bytes of `new` that are not those of `old`, in ascending order. -/
def changes (old new : Memory) : List Patch := changesBelow old new 4096 (Nat.le_refl _) []

end Memory

namespace Screen

/-- The rows that are not what they were, with their numbers, from top to bottom. -/
def changedRows (old new : Vector Row 32) : List (Fin 32 × Row) :=
  (List.finRange 32).filterMap fun y => if old[y] = new[y] then none else some (y, new[y])

/-- The rows of `new` that are not those of `old`. -/
def changes (old new : Screen) : List (Fin 32 × Row) := changedRows old.rows new.rows

end Screen

end Chip8
