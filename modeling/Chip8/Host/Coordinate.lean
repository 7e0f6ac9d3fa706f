/-!
# Coordinates

The window system is given positions and lengths as machine integers. It cuts them off
near `2 ^ 30` on either side of zero and keeps 24 significant bits of them. A number that
needs no more bits is kept as it is (`kept_of_lt`), so only those of absurd scales are
touched.
-/

namespace Chip8.Host.Coordinate

/-- The number with 24 significant bits nearest to `n`; half way between two of them, the
one whose last significant bit is zero. -/
def nearest (n : Nat) : Nat :=
  if n < 16777216 then n
  else
    let unit := 1 <<< (n.log2 - 23)
    let count := n / unit
    let rest := n % unit
    if unit < 2 * rest ∨ (unit = 2 * rest ∧ count % 2 = 1) then (count + 1) * unit
    else count * unit

/-- A number cut off at the limits of coordinates. -/
def clamp (n : Int) : Int :=
  if 1073741823 < n then 1073741823 else if n < -1073741824 then -1073741824 else n

/-- What is kept of a number. -/
def kept (n : Int) : Int := (clamp n).sign * nearest (clamp n).natAbs

/-- What is kept of a position. -/
def position (n : Int32) : Int := kept n.toInt

/-- What is kept of a length. -/
def length (n : UInt32) : Int := kept n.toNat

theorem nearest_of_lt {n : Nat} (h : n < 16777216) : nearest n = n := if_pos h

/-- A number of 24 bits or fewer is kept as it is. -/
theorem kept_of_lt {n : Int} (h : n.natAbs < 16777216) : kept n = n := by
  have hclamp : clamp n = n := by
    unfold clamp
    rw [if_neg (by omega), if_neg (by omega)]
  rw [kept, hclamp, nearest_of_lt h, Int.sign_mul_natAbs]

/-- Rounding a number of more bits leaves it a large one. -/
theorem le_nearest {n : Nat} (h : 16777216 ≤ n) : 8388608 ≤ nearest n := by
  have hlog : 24 ≤ n.log2 := (Nat.le_log2 (by omega)).mpr h
  have hpos : 0 < 2 ^ (n.log2 - 23) := Nat.two_pow_pos _
  have hcount : 8388608 ≤ n / 2 ^ (n.log2 - 23) := by
    rw [Nat.le_div_iff_mul_le hpos]
    calc 8388608 * 2 ^ (n.log2 - 23)
        = 2 ^ (23 + (n.log2 - 23)) := (Nat.pow_add 2 23 _).symm
      _ = 2 ^ n.log2 := congrArg (2 ^ ·) (by omega)
      _ ≤ n := Nat.log2_self_le (by omega)
  unfold nearest
  rw [if_neg (by omega), Nat.one_shiftLeft]
  dsimp only
  split
  · exact Nat.le_trans (Nat.le_succ_of_le hcount) (Nat.le_mul_of_pos_right _ hpos)
  · exact Nat.le_trans hcount (Nat.le_mul_of_pos_right _ hpos)

theorem le_kept {n : Int} (h : 16777216 ≤ n) : 8388608 ≤ kept n := by
  have hclamp : 16777216 ≤ clamp n := by
    unfold clamp
    split
    · decide
    · split <;> omega
  have hnearest : 8388608 ≤ nearest (clamp n).natAbs := le_nearest (by omega)
  rw [kept, Int.sign_eq_one_of_pos (by omega)]
  omega

end Chip8.Host.Coordinate
