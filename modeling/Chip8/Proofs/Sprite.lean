import Chip8.Screen
import Mathlib.Data.Bool.Basic
import Mathlib.Data.Nat.Bitwise
import Mathlib.Tactic.IntervalCases

/-!
# Sprites on the screen

Screens can be added without carry: a pixel of the sum (`xor`) is on iff it is on in
exactly one of the two. What the loops of `draw` do is to add the screen of the pixels
that the sprite covers, its `stamp`; the drawing collides iff screen and stamp have a
pixel in common (`draw_eq`).

Every loop adds something (`add`), and what its turns add does not overlap (`add_add`), so
no pixel is turned over twice and a pixel that was on at the beginning is still on when
its turn comes.
-/

namespace Chip8.Screen

/-- The pixels on in exactly one of two screens. -/
def xor (s t : Screen) : Screen := ofFn fun y x => s.pixel x y ^^ t.pixel x y

/-- Whether some pixel is on in both screens. -/
def overlaps (s t : Screen) : Bool :=
  (List.range height).any fun y => (List.range width).any fun x => s.pixel x y && t.pixel x y

/-- Turns over all pixels that are on in a screen, and notes if one of them was on. -/
def add (p : Screen × Bool) (t : Screen) : Screen × Bool := (p.1.xor t, p.2 || p.1.overlaps t)

/-- The screen with a single pixel on. -/
def dot (x : Fin 64) (y : Fin 32) : Screen :=
  ofFn fun row column => decide (row = y.val ∧ column = x.val)

/-- What `count` bits of a byte cover, from bit `first` on, when bit 0 is in column `x` of
row `y`. -/
def stampBits (x y : Nat) (b : UInt8) (first count : Nat) : Screen :=
  ofFn fun row column =>
    decide (row = y ∧ x + first ≤ column ∧ column < x + first + count) && bit b (column - x)

/-- What a sprite covers that begins in column `x` of row `y`. -/
def stamp (x y : Nat) (sprite : List UInt8) : Screen :=
  ofFn fun row column =>
    decide (x ≤ column ∧ column < x + 8 ∧ y ≤ row)
      && bit (sprite.getD (row - y) 0) (column - x)

@[simp]
theorem pixel_xor (s t : Screen) (x y : Nat) :
    (s.xor t).pixel x y = (s.pixel x y ^^ t.pixel x y) := by
  rw [xor, pixel_ofFn]
  by_cases h : x < 64 ∧ y < 32
  · simp [h]
  · simp [h, pixel_eq_false]

theorem overlaps_iff {s t : Screen} :
    s.overlaps t = true ↔ ∃ x y, s.pixel x y = true ∧ t.pixel x y = true := by
  simp only [overlaps, List.any_eq_true, List.mem_range, Bool.and_eq_true]
  constructor
  · rintro ⟨y, -, x, -, hon⟩
    exact ⟨x, y, hon⟩
  · rintro ⟨x, y, hs, ht⟩
    obtain ⟨hx, hy⟩ := lt_of_pixel hs
    exact ⟨y, hy, x, hx, hs, ht⟩

theorem pixel_dot_iff {x : Fin 64} {y : Fin 32} {column row : Nat} :
    (dot x y).pixel column row = true ↔ row = y.val ∧ column = x.val := by
  simp only [dot, pixel_ofFn, Bool.and_eq_true, decide_eq_true_eq]
  omega

theorem pixel_stampBits_iff {x y : Nat} {b : UInt8} {first count column row : Nat} :
    (stampBits x y b first count).pixel column row = true
      ↔ (column < 64 ∧ row < 32) ∧ (row = y ∧ x + first ≤ column ∧ column < x + first + count)
        ∧ bit b (column - x) = true := by
  simp only [stampBits, pixel_ofFn, Bool.and_eq_true, decide_eq_true_eq]

theorem pixel_stamp_iff {x y : Nat} {sprite : List UInt8} {column row : Nat} :
    (stamp x y sprite).pixel column row = true
      ↔ (column < 64 ∧ row < 32) ∧ (x ≤ column ∧ column < x + 8 ∧ y ≤ row)
        ∧ bit (sprite.getD (row - y) 0) (column - x) = true := by
  simp only [stamp, pixel_ofFn, Bool.and_eq_true, decide_eq_true_eq]

/-! ## Bits -/

theorem bit_eq_testBit (b : UInt8) {column : Nat} (h : column < 8) :
    bit b column = b.toNat.testBit (7 - column) := by
  have hmask : (0x80 >>> UInt8.ofNat column : UInt8).toNat = 2 ^ (7 - column) := by
    interval_cases column <;> rfl
  have hand : b &&& (0x80 >>> UInt8.ofNat column) = 0 ↔ b.toNat &&& 2 ^ (7 - column) = 0 := by
    rw [← UInt8.toNat_inj, UInt8.toNat_and, hmask]
    rfl
  rw [bit, Bool.eq_iff_iff, bne_iff_ne, ne_eq, hand, Nat.and_two_pow]
  cases b.toNat.testBit (7 - column) <;> simp

theorem bit_zero (column : Nat) : bit 0 column = false := by
  simp [bit]

/-! ## Adding -/

theorem add_eq_self {p : Screen × Bool} {t : Screen} (hdark : ∀ x y, ¬ t.pixel x y = true) :
    add p t = p := by
  have hapart : p.1.overlaps t = false := by
    rw [Bool.eq_false_iff, ne_eq, overlaps_iff]
    rintro ⟨x, y, -, hon⟩
    exact hdark x y hon
  have hsame : p.1.xor t = p.1 := by
    refine ext_pixel fun x y => ?_
    rw [pixel_xor, Bool.eq_false_iff.mpr (hdark x y), Bool.xor_false]
  rw [add, hapart, hsame, Bool.or_false]

/-- Two screens that have no pixel in common are added like one screen with the pixels of
both. -/
theorem add_add {p : Screen × Bool} {t u v : Screen}
    (hapart : ∀ x y, t.pixel x y = true → ¬ u.pixel x y = true)
    (hboth : ∀ x y, v.pixel x y = true ↔ t.pixel x y = true ∨ u.pixel x y = true) :
    add (add p t) u = add p v := by
  have hsum : v = t.xor u := by
    refine ext_pixel fun x y => ?_
    have hpixel := hapart x y
    rw [Bool.eq_iff_iff, hboth, pixel_xor]
    cases ht : t.pixel x y
    · simp
    · simp [hpixel ht]
  have hscreen : (p.1.xor t).xor u = p.1.xor v := by
    refine ext_pixel fun x y => ?_
    rw [hsum]
    simp only [pixel_xor, Bool.xor_assoc]
  have hcollided : (p.1.overlaps t || (p.1.xor t).overlaps u) = p.1.overlaps v := by
    rw [Bool.eq_iff_iff, Bool.or_eq_true, overlaps_iff, overlaps_iff, overlaps_iff,
      ← exists_or]
    refine exists_congr fun x => ?_
    rw [← exists_or]
    refine exists_congr fun y => ?_
    have hpixel := hapart x y
    rw [hboth, pixel_xor]
    -- `t` has not touched the pixels of `u`
    cases ht : t.pixel x y
    · simp
    · simp [hpixel ht]
  rw [add, add, add, hscreen, Bool.or_assoc, hcollided]

/-! ## The loops -/

theorem pixel_set (s : Screen) (x : Fin 64) (y : Fin 32) (on : Bool) {column row : Nat}
    (hcolumn : column < 64) (hrow : row < 32) :
    pixel ⟨s.pixels.set (position x y) on⟩ column row
      = if row = y.val ∧ column = x.val then on else s.pixel column row := by
  have hplace : (position x y).val = (position ⟨column, hcolumn⟩ ⟨row, hrow⟩).val
      ↔ row = y.val ∧ column = x.val := by
    rw [← Fin.ext_iff, position_inj, Fin.ext_iff, Fin.ext_iff]
    constructor
    · rintro ⟨hx, hy⟩
      exact ⟨hy.symm, hx.symm⟩
    · rintro ⟨hy, hx⟩
      exact ⟨hx.symm, hy.symm⟩
  simp only [pixel, hcolumn, hrow, and_self, dite_true, Fin.getElem_fin, Vector.getElem_set,
    hplace]

theorem plot_eq (p : Screen × Bool) (x : Fin 64) (y : Fin 32) :
    plot p x y = add p (dot x y) := by
  obtain ⟨s, collided⟩ := p
  have hon : s.pixels[position x y] = s.pixel x y := by simp [pixel]
  have hscreen : (⟨s.pixels.set (position x y) !s.pixel x y⟩ : Screen) = s.xor (dot x y) := by
    refine ext_pixel fun column row => ?_
    by_cases hin : column < 64 ∧ row < 32
    · rw [pixel_set s x y _ hin.1 hin.2, pixel_xor]
      by_cases hplace : row = y.val ∧ column = x.val
      · rw [if_pos hplace, pixel_dot_iff.mpr hplace, hplace.1, hplace.2, Bool.xor_true]
      · rw [if_neg hplace, Bool.eq_false_iff.mpr fun hdot => hplace (pixel_dot_iff.mp hdot),
          Bool.xor_false]
    · rw [pixel_eq_false hin, pixel_eq_false hin]
  have hcollided : s.overlaps (dot x y) = s.pixel x y := by
    rw [Bool.eq_iff_iff, overlaps_iff]
    simp only [pixel_dot_iff]
    constructor
    · rintro ⟨column, row, hs, rfl, rfl⟩
      exact hs
    · intro hs
      exact ⟨x, y, hs, rfl, rfl⟩
  rw [plot, add, hon, hscreen, hcollided]

theorem plotByte_eq (p : Screen × Bool) (x : Nat) (y : Fin 32) (b : UInt8)
    (first count : Nat) :
    plotByte p x y b (List.range' first count) = add p (stampBits x y b first count) := by
  induction count generalizing p first with
  | zero =>
    refine (add_eq_self fun column row hon => ?_).symm
    obtain ⟨-, hplace, -⟩ := pixel_stampBits_iff.mp hon
    omega
  | succ count ih =>
    rw [List.range'_succ, plotByte]
    split
    · rename_i hinside
      rw [ih]
      cases hset : bit b first with
      | true =>
        rw [if_pos rfl, plot_eq]
        refine add_add ?_ ?_
        · intro column row hdot hrest
          have hplace : row = y.val ∧ column = x + first := pixel_dot_iff.mp hdot
          obtain ⟨-, hplace', -⟩ := pixel_stampBits_iff.mp hrest
          omega
        · intro column row
          rw [pixel_stampBits_iff, pixel_dot_iff, pixel_stampBits_iff]
          constructor
          · rintro ⟨hin, ⟨hrow, hfrom, hto⟩, hbit⟩
            rcases Nat.eq_or_lt_of_le hfrom with hfirst | hafter
            · exact .inl ⟨hrow, hfirst.symm⟩
            · exact .inr ⟨hin, ⟨hrow, hafter, by omega⟩, hbit⟩
          · rintro (⟨hrow, hcolumn⟩ | ⟨hin, ⟨hrow, hfrom, hto⟩, hbit⟩)
            · change column = x + first at hcolumn
              refine ⟨by omega, by omega, ?_⟩
              rw [hcolumn, Nat.add_sub_cancel_left]
              exact hset
            · exact ⟨hin, by omega, hbit⟩
      | false =>
        rw [if_neg Bool.false_ne_true]
        refine congrArg (add p) (ext_pixel fun column row => ?_)
        rw [Bool.eq_iff_iff, pixel_stampBits_iff, pixel_stampBits_iff]
        constructor
        · rintro ⟨hin, ⟨hrow, hfrom, hto⟩, hbit⟩
          exact ⟨hin, by omega, hbit⟩
        · rintro ⟨hin, ⟨hrow, hfrom, hto⟩, hbit⟩
          rcases Nat.eq_or_lt_of_le hfrom with hfirst | hafter
          · rw [← hfirst, Nat.add_sub_cancel_left, hset] at hbit
            cases hbit
          · exact ⟨hin, ⟨hrow, hafter, by omega⟩, hbit⟩
    · -- past the right edge, where the other bits are too
      refine (add_eq_self fun column row hon => ?_).symm
      obtain ⟨hin, hplace, -⟩ := pixel_stampBits_iff.mp hon
      omega

theorem plotRows_eq (p : Screen × Bool) (x y : Nat) (sprite : List UInt8) :
    plotRows p x y sprite = add p (stamp x y sprite) := by
  induction sprite generalizing p y with
  | nil =>
    refine (add_eq_self fun column row hon => ?_).symm
    obtain ⟨-, -, hbit⟩ := pixel_stamp_iff.mp hon
    rw [List.getD_nil, bit_zero] at hbit
    cases hbit
  | cons b rest ih =>
    rw [plotRows]
    split
    · rename_i hinside
      rw [ih, List.range_eq_range', plotByte_eq]
      refine add_add ?_ ?_
      · intro column row hfirst hrest
        obtain ⟨-, hplace, -⟩ := pixel_stampBits_iff.mp hfirst
        obtain ⟨-, hplace', -⟩ := pixel_stamp_iff.mp hrest
        have hrow : row = y := hplace.1
        omega
      · intro column row
        rw [pixel_stamp_iff, pixel_stampBits_iff, pixel_stamp_iff]
        constructor
        · rintro ⟨hin, ⟨hleft, hright, htop⟩, hbit⟩
          rcases Nat.eq_or_lt_of_le htop with rfl | hbelow
          · rw [Nat.sub_self, List.getD_cons_zero] at hbit
            exact .inl ⟨hin, ⟨rfl, hleft, hright⟩, hbit⟩
          · have hnext : row - y = row - (y + 1) + 1 := by omega
            rw [hnext, List.getD_cons_succ] at hbit
            exact .inr ⟨hin, ⟨hleft, hright, hbelow⟩, hbit⟩
        · rintro (⟨hin, ⟨hrow, hleft, hright⟩, hbit⟩ | ⟨hin, ⟨hleft, hright, hbelow⟩, hbit⟩)
          · change row = y at hrow
            subst hrow
            refine ⟨hin, ⟨hleft, hright, Nat.le_refl _⟩, ?_⟩
            rw [Nat.sub_self, List.getD_cons_zero]
            exact hbit
          · refine ⟨hin, ⟨hleft, hright, by omega⟩, ?_⟩
            have hnext : row - y = row - (y + 1) + 1 := by omega
            rw [hnext, List.getD_cons_succ]
            exact hbit
    · -- past the lower edge, where the other rows are too
      refine (add_eq_self fun column row hon => ?_).symm
      obtain ⟨hin, hplace, -⟩ := pixel_stamp_iff.mp hon
      omega

/-- Drawing adds the stamp of the sprite, and it collides iff that overlaps the screen. -/
theorem draw_eq (s : Screen) (x y : UInt8) (sprite : List UInt8) :
    s.draw x y sprite =
      (s.xor (stamp (x.toNat % 64) (y.toNat % 32) sprite),
        s.overlaps (stamp (x.toNat % 64) (y.toNat % 32) sprite)) := by
  rw [draw, plotRows_eq, add, Bool.false_or]

end Chip8.Screen
