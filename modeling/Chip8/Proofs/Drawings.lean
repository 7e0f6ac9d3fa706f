import Chip8.Proofs.Sprite
import Mathlib.Algebra.Ring.Parity

/-!
# Drawings

A drawing is a sprite together with the place it is drawn at. What it does to the screen
is told by the pixels it covers (`Drawing.covers`): they are turned over, no others are,
and the drawing collides iff one of them was on (`draw_clipped_xor`).

Of a list of drawings only the number counts that cover a pixel (`Drawing.coverCount`). A
pixel is turned over iff this number is odd, and some drawing collides iff there is a
pixel that was on and is covered, or one that is covered twice (`anyCollides_iff`). These
numbers do not change with the order of the drawings, though which of the drawings collide
does (`drawings_commute`).
-/

namespace Chip8

/-- A sprite and the place where it is drawn. -/
structure Drawing where
  x : UInt8
  y : UInt8
  sprite : List UInt8

namespace Drawing

/-- The column of the leftmost bits. The start of a sprite goes round the screen. -/
def left (d : Drawing) : Nat := d.x.toNat % 64

/-- The row of the first byte. -/
def top (d : Drawing) : Nat := d.y.toNat % 32

/-- Whether a drawing has a pixel in a column and a row. Only the start goes round the
screen, so there are columns and rows past the edges too. -/
def covers (d : Drawing) (column row : Nat) : Bool :=
  decide (d.left ≤ column ∧ column < d.left + 8 ∧ d.top ≤ row ∧ row < d.top + d.sprite.length)
    && (d.sprite.getD (row - d.top) 0).toNat.testBit (7 - (column - d.left))

/-- The number of drawings that have a pixel in a column and a row. -/
def coverCount (drawings : List Drawing) (column row : Nat) : Nat :=
  drawings.countP fun d => d.covers column row

theorem coverCount_cons (d : Drawing) (rest : List Drawing) (column row : Nat) :
    coverCount (d :: rest) column row
      = coverCount rest column row + if d.covers column row then 1 else 0 :=
  List.countP_cons ..

theorem coverCount_append (first second : List Drawing) (column row : Nat) :
    coverCount (first ++ second) column row
      = coverCount first column row + coverCount second column row :=
  List.countP_append ..

/-- The order of the drawings does not matter. -/
theorem coverCount_perm {drawings drawings' : List Drawing} (h : drawings.Perm drawings')
    (column row : Nat) : coverCount drawings' column row = coverCount drawings column row :=
  (h.countP_eq _).symm

end Drawing

namespace Screen

variable {s : Screen} {d : Drawing} {column row : Nat}

/-- Makes drawings one after the other, and lists what each of them tells about a
collision. -/
def drawAll (s : Screen) : List Drawing → Screen × List Bool
  | [] => (s, [])
  | d :: rest =>
    let drawn := s.draw d.x d.y d.sprite
    let after := drawn.1.drawAll rest
    (after.1, drawn.2 :: after.2)

/-- Whether some drawing of a list collides. -/
def anyCollides (s : Screen) (drawings : List Drawing) : Bool := (s.drawAll drawings).2.any id

/-! ## One drawing -/

/-- Every place in the table of pixels belongs to one column and one row. -/
theorem pixels_eq_pixel (s : Screen) (k : Fin 2048) :
    s.pixels[k] = s.pixel (k.val % 64) (k.val / 64) := by
  have hcolumn : k.val % 64 < 64 := by omega
  have hrow : k.val / 64 < 32 := by omega
  have hplace : k.val / 64 * 64 + k.val % 64 = k.val := by omega
  simp only [pixel, hcolumn, hrow, and_self, dite_true, position, Fin.getElem_fin, hplace]

/-- Screens that show the same are equal. -/
theorem ext_shown {s t : Screen}
    (h : ∀ column row, column < 64 → row < 32 → s.pixel column row = t.pixel column row) :
    s = t := by
  refine ext_pixel fun column row => ?_
  by_cases hin : column < 64 ∧ row < 32
  · exact h column row hin.1 hin.2
  · rw [pixel_eq_false hin, pixel_eq_false hin]

/-- On the screen a stamp has the pixels that the drawing covers. -/
theorem pixel_stamp_of_lt (d : Drawing) (hcolumn : column < 64) (hrow : row < 32) :
    (stamp d.left d.top d.sprite).pixel column row = d.covers column row := by
  rw [Bool.eq_iff_iff, pixel_stamp_iff, Drawing.covers, Bool.and_eq_true, decide_eq_true_eq]
  constructor
  · rintro ⟨-, ⟨hleft, hright, htop⟩, hbit⟩
    have hbottom : row < d.top + d.sprite.length := by
      by_contra hpast
      rw [List.getD_eq_default _ _ (by omega), bit_zero] at hbit
      cases hbit
    rw [bit_eq_testBit _ (by omega)] at hbit
    exact ⟨⟨hleft, hright, htop, hbottom⟩, hbit⟩
  · rintro ⟨⟨hleft, hright, htop, -⟩, hbit⟩
    refine ⟨⟨hcolumn, hrow⟩, ⟨hleft, hright, htop⟩, ?_⟩
    rw [bit_eq_testBit _ (by omega)]
    exact hbit

theorem pixel_draw (s : Screen) (d : Drawing) (hcolumn : column < 64) (hrow : row < 32) :
    (s.draw d.x d.y d.sprite).1.pixel column row
      = (s.pixel column row ^^ d.covers column row) := by
  rw [draw_eq]
  show (s.xor (stamp d.left d.top d.sprite)).pixel column row = _
  rw [pixel_xor, pixel_stamp_of_lt d hcolumn hrow]

theorem draw_collides_iff (s : Screen) (d : Drawing) :
    (s.draw d.x d.y d.sprite).2 = true
      ↔ ∃ column row, column < 64 ∧ row < 32
        ∧ s.pixel column row = true ∧ d.covers column row = true := by
  rw [draw_eq]
  show s.overlaps (stamp d.left d.top d.sprite) = true ↔ _
  rw [overlaps_iff]
  constructor
  · rintro ⟨column, row, hon, hstamp⟩
    obtain ⟨hcolumn, hrow⟩ := lt_of_pixel hon
    rw [pixel_stamp_of_lt d hcolumn hrow] at hstamp
    exact ⟨column, row, hcolumn, hrow, hon, hstamp⟩
  · rintro ⟨column, row, hcolumn, hrow, hon, hcovers⟩
    refine ⟨column, row, hon, ?_⟩
    rw [pixel_stamp_of_lt d hcolumn hrow]
    exact hcovers

/-- **Drawing is a clipped exclusive or.** Whatever the screen, the start and the number
of bytes, every pixel of the screen is turned over iff the sprite covers it. In the table
of pixels, where rows follow each other without a gap, the place of a pixel says which one
it is: a place outside the columns or the rows of the sprite keeps its value, so nothing
comes back at the opposite edge or at the beginning of the next row. The drawing collides
iff a pixel was on before and is off after. -/
theorem draw_clipped_xor (s : Screen) (x y : UInt8) (sprite : List UInt8) :
    let d : Drawing := ⟨x, y, sprite⟩
    let drawn := s.draw x y sprite
    (∀ column row, column < 64 → row < 32 →
      drawn.1.pixel column row = (s.pixel column row ^^ d.covers column row))
      ∧ (∀ k : Fin 2048,
        drawn.1.pixels[k] = (s.pixels[k] ^^ d.covers (k.val % 64) (k.val / 64)))
      ∧ (∀ k : Fin 2048,
        k.val % 64 < x.toNat % 64 ∨ x.toNat % 64 + 8 ≤ k.val % 64
          ∨ k.val / 64 < y.toNat % 32 ∨ y.toNat % 32 + sprite.length ≤ k.val / 64 →
        drawn.1.pixels[k] = s.pixels[k])
      ∧ (drawn.2 = true
        ↔ ∃ column row, column < 64 ∧ row < 32
          ∧ s.pixel column row = true ∧ drawn.1.pixel column row = false) := by
  intro d drawn
  have hpixel (column row : Nat) (hcolumn : column < 64) (hrow : row < 32) :
      drawn.1.pixel column row = (s.pixel column row ^^ d.covers column row) :=
    pixel_draw s d hcolumn hrow
  have hplace (k : Fin 2048) :
      drawn.1.pixels[k] = (s.pixels[k] ^^ d.covers (k.val % 64) (k.val / 64)) := by
    rw [pixels_eq_pixel, pixels_eq_pixel, hpixel _ _ (by omega) (by omega)]
  refine ⟨hpixel, hplace, ?_, ?_⟩
  · intro k hout
    have hcovers : d.covers (k.val % 64) (k.val / 64) = false := by
      rw [Drawing.covers, Bool.and_eq_false_iff, decide_eq_false_iff_not]
      refine .inl ?_
      show ¬ (x.toNat % 64 ≤ k.val % 64 ∧ k.val % 64 < x.toNat % 64 + 8
        ∧ y.toNat % 32 ≤ k.val / 64 ∧ k.val / 64 < y.toNat % 32 + sprite.length)
      omega
    rw [hplace, hcovers, Bool.xor_false]
  · show (s.draw d.x d.y d.sprite).2 = true ↔ _
    rw [draw_collides_iff]
    refine exists_congr fun column => exists_congr fun row => ?_
    refine and_congr_right fun hcolumn => and_congr_right fun hrow =>
      and_congr_right fun hon => ?_
    rw [hpixel column row hcolumn hrow, hon]
    simp

/-- Of a sprite at the lower right corner four columns and two rows are on the screen. The
last pixel of its first row is followed in the table by the first pixel of the next, which
stays off. -/
theorem draw_clipped_xor_at_corner :
    let drawn := blank.draw 124 62 [0xFF, 0xFF, 0xFF]
    let last : Fin 2048 := 30 * 64 + 63
    (63 < 64 ∧ 30 < 32 ∧ drawn.1.pixel 63 30 = true)
      ∧ ((last + 1).val % 64 < (124 : UInt8).toNat % 64
        ∧ drawn.1.pixels[last] = true ∧ drawn.1.pixels[last + 1] = false)
      ∧ drawn.2 = false := by
  intro drawn last
  obtain ⟨hpixel, hplace, hout, hcollides⟩ := draw_clipped_xor blank 124 62 [0xFF, 0xFF, 0xFF]
  have hleft : (last + 1).val % 64 < (124 : UInt8).toNat % 64 := by decide
  refine ⟨⟨by decide, by decide, ?_⟩, ⟨hleft, ?_, ?_⟩, ?_⟩
  · rw [hpixel 63 30 (by decide) (by decide), pixel_blank, Bool.false_xor]
    decide
  · rw [hplace last, pixels_eq_pixel, pixel_blank, Bool.false_xor]
    decide
  · rw [hout (last + 1) (.inl hleft), pixels_eq_pixel, pixel_blank]
  · rw [Bool.eq_false_iff, ne_eq, hcollides]
    rintro ⟨column, row, -, -, hon, -⟩
    rw [pixel_blank] at hon
    cases hon

/-! ## Lists of drawings -/

/-- A pixel is turned over once for each drawing that covers it. -/
theorem pixel_drawAll (s : Screen) (drawings : List Drawing) (hcolumn : column < 64)
    (hrow : row < 32) :
    (s.drawAll drawings).1.pixel column row
      = (s.pixel column row ^^ decide (Odd (Drawing.coverCount drawings column row))) := by
  induction drawings generalizing s with
  | nil =>
    show s.pixel column row = (s.pixel column row ^^ decide (Odd 0))
    simp
  | cons d rest ih =>
    show ((s.draw d.x d.y d.sprite).1.drawAll rest).1.pixel column row = _
    rw [ih, pixel_draw s d hcolumn hrow, Drawing.coverCount_cons]
    cases d.covers column row with
    | false => rw [Bool.xor_false, if_neg Bool.false_ne_true, Nat.add_zero]
    | true =>
      rw [if_pos rfl, decide_eq_decide.mpr Nat.odd_add_one, decide_not, Bool.xor_true,
        Bool.not_xor, Bool.xor_not]

/-- A drawing turns a pixel off that was on at the beginning, or one that an earlier
drawing has turned on. -/
theorem anyCollides_iff (s : Screen) (drawings : List Drawing) :
    s.anyCollides drawings = true
      ↔ ∃ column row, column < 64 ∧ row < 32
        ∧ ((s.pixel column row = true ∧ 1 ≤ Drawing.coverCount drawings column row)
          ∨ 2 ≤ Drawing.coverCount drawings column row) := by
  induction drawings generalizing s with
  | nil => simp [anyCollides, drawAll, Drawing.coverCount]
  | cons d rest ih =>
    have hcons : s.anyCollides (d :: rest)
        = ((s.draw d.x d.y d.sprite).2 || (s.draw d.x d.y d.sprite).1.anyCollides rest) := rfl
    rw [hcons, Bool.or_eq_true, draw_collides_iff, ih, ← exists_or]
    refine exists_congr fun column => ?_
    rw [← exists_or]
    refine exists_congr fun row => ?_
    rw [← and_or_left, ← and_or_left]
    refine and_congr_right fun hcolumn => and_congr_right fun hrow => ?_
    rw [pixel_draw s d hcolumn hrow, Drawing.coverCount_cons]
    cases s.pixel column row with
    | false =>
      cases d.covers column row with
      | false => simp
      | true =>
        -- the first drawing turns the pixel on, so one of the others is enough to collide
        simp only [Bool.false_xor, reduceCtorEq, false_and, false_or, true_and, if_true]
        omega
    | true => cases d.covers column row <;> simp

/-- **Drawings commute.** The order of some drawings makes no difference to the screen
they leave, nor to whether some of them collide: one does iff there is a pixel that was on
at first and is covered, or one that is covered twice. Making them all again, in whatever
order, restores the screen; and if any pixel of the screen is covered in this, something
collides on the way. -/
theorem drawings_commute (s : Screen) {drawings drawings' : List Drawing}
    (h : drawings.Perm drawings') :
    (s.drawAll drawings').1 = (s.drawAll drawings).1
      ∧ s.anyCollides drawings' = s.anyCollides drawings
      ∧ (s.anyCollides drawings = true
        ↔ ∃ column row, column < 64 ∧ row < 32
          ∧ ((s.pixel column row = true ∧ 1 ≤ Drawing.coverCount drawings column row)
            ∨ 2 ≤ Drawing.coverCount drawings column row))
      ∧ (s.drawAll (drawings ++ drawings')).1 = s
      ∧ ((∃ column row, column < 64 ∧ row < 32
          ∧ 0 < Drawing.coverCount (drawings ++ drawings') column row) →
        s.anyCollides (drawings ++ drawings') = true) := by
  have hcount := Drawing.coverCount_perm h
  -- in both passes together every drawing is made twice
  have htwice (column row : Nat) : Drawing.coverCount (drawings ++ drawings') column row
      = 2 * Drawing.coverCount drawings column row := by
    rw [Drawing.coverCount_append, hcount, Nat.two_mul]
  refine ⟨?_, ?_, anyCollides_iff s drawings, ?_, ?_⟩
  · refine ext_shown fun column row hcolumn hrow => ?_
    rw [pixel_drawAll s _ hcolumn hrow, pixel_drawAll s _ hcolumn hrow, hcount]
  · rw [Bool.eq_iff_iff, anyCollides_iff, anyCollides_iff]
    simp only [hcount]
  · refine ext_shown fun column row hcolumn hrow => ?_
    have heven : ¬ Odd (Drawing.coverCount (drawings ++ drawings') column row) := by
      rw [htwice, Nat.not_odd_iff_even]
      exact even_two_mul _
    rw [pixel_drawAll s _ hcolumn hrow, decide_eq_false heven, Bool.xor_false]
  · rintro ⟨column, row, hcolumn, hrow, hcovered⟩
    rw [anyCollides_iff]
    refine ⟨column, row, hcolumn, hrow, .inr ?_⟩
    rw [htwice] at hcovered ⊢
    omega

/-- Two drawings in the upper left corner that have a pixel in common. -/
def crossing : List Drawing := [⟨0, 0, [0xC0]⟩, ⟨64, 32, [0x80, 0x80]⟩]

/-- On a blank screen the drawing that is made second collides, whichever it is. -/
theorem drawings_commute_of_crossing :
    crossing.Perm crossing.reverse
      ∧ (blank.drawAll crossing.reverse).1 = (blank.drawAll crossing).1
      ∧ blank.anyCollides crossing.reverse = true
      ∧ (blank.drawAll (crossing ++ crossing.reverse)).1 = blank
      ∧ 0 < Drawing.coverCount (crossing ++ crossing.reverse) 1 0
      ∧ blank.anyCollides (crossing ++ crossing.reverse) = true := by
  have hperm : crossing.Perm crossing.reverse := (List.reverse_perm crossing).symm
  have htwice : 2 ≤ Drawing.coverCount crossing 0 0 := by decide
  have hcovered : 0 < Drawing.coverCount (crossing ++ crossing.reverse) 1 0 := by decide
  obtain ⟨hscreen, hsame, hcollides, hback, hagain⟩ := drawings_commute blank hperm
  refine ⟨hperm, hscreen, ?_, hback, hcovered, ?_⟩
  · rw [hsame, hcollides]
    exact ⟨0, 0, by decide, by decide, .inr htwice⟩
  · exact hagain ⟨1, 0, by decide, by decide, hcovered⟩

end Screen

end Chip8
