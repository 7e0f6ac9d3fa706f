/-!
# The screen

The screen has 64 by 32 pixels, which are kept row by row (`position`). A sprite is drawn
in two nested loops, one over its bytes and one over the bits of a byte (`plotRows`,
`plotByte`); every bit that is set turns one pixel over (`plot`). The start of a sprite
goes round the screen; what passes the right or the lower edge is cut off.
-/

namespace Chip8

/-- A row of 64 pixels, the leftmost one in the most significant bit. -/
abbrev Row := BitVec 64

/-- The row of the pixels for which `lit` is true. -/
def Row.ofFn (lit : Nat → Bool) : Row :=
  (BitVec.ofBoolListBE ((List.range 64).map lit)).cast
    (by rw [List.length_map, List.length_range])

/-- The pixels of the screen, row by row from top to bottom and each row from left to
right. -/
structure Screen where
  pixels : Vector Bool 2048
deriving DecidableEq

namespace Screen

def width : Nat := 64

def height : Nat := 32

/-- Where a pixel is kept. -/
def position (x : Fin 64) (y : Fin 32) : Fin 2048 := ⟨y.val * 64 + x.val, by omega⟩

/-- The screen with every pixel off. -/
def blank : Screen := ⟨Vector.replicate 2048 false⟩

/-- Whether a pixel is on. There is no pixel outside the screen, so none that is on. -/
def pixel (s : Screen) (x y : Nat) : Bool :=
  if h : x < 64 ∧ y < 32 then s.pixels[position ⟨x, h.1⟩ ⟨y, h.2⟩] else false

/-- The screen of the pixels for which `lit` is true; it is given the row and then the
column. -/
def ofFn (lit : Nat → Nat → Bool) : Screen :=
  ⟨Vector.ofFn fun (k : Fin 2048) => lit (k.val / 64) (k.val % 64)⟩

def rows (s : Screen) : Vector Row 32 :=
  Vector.ofFn fun y => Row.ofFn fun x => s.pixel x y.val

/-- Whether a pixel in one of some columns and one of some rows is on. -/
def anyOn (s : Screen) (columns rows : List Nat) : Bool :=
  rows.any fun y => columns.any fun x => s.pixel x y

def litCount (s : Screen) : Nat := s.pixels.toList.count true

/-! ## Drawing -/

/-- Turns a pixel over, and notes that something collided if it was on. -/
def plot : Screen × Bool → Fin 64 → Fin 32 → Screen × Bool
  | (s, collided), x, y =>
    let on := s.pixels[position x y]
    (⟨s.pixels.set (position x y) !on⟩, collided || on)

/-- Whether a bit of a byte is set; the most significant one has number 0. -/
def bit (b : UInt8) (column : Nat) : Bool := b &&& (0x80 >>> UInt8.ofNat column) != 0

/-- Plots some bits of a byte in a row, bit 0 in column `x`. -/
def plotByte (p : Screen × Bool) (x : Nat) (y : Fin 32) (b : UInt8) : List Nat → Screen × Bool
  | [] => p
  | column :: rest =>
    if h : x + column < 64 then
      -- a bit that is not set is passed over
      plotByte (if bit b column then plot p ⟨x + column, h⟩ y else p) x y b rest
    else p

/-- Plots the bytes of a sprite below each other, the first one in row `y`. -/
def plotRows (p : Screen × Bool) (x y : Nat) : List UInt8 → Screen × Bool
  | [] => p
  | b :: rest =>
    -- the lower edge ends the sprite
    if h : y < 32 then plotRows (plotByte p x ⟨y, h⟩ b (List.range 8)) x (y + 1) rest else p

/-- Draws a sprite, and tells whether a pixel that was on is now off. -/
def draw (s : Screen) (x y : UInt8) (sprite : List UInt8) : Screen × Bool :=
  plotRows (s, false) (x.toNat % 64) (y.toNat % 32) sprite

/-! ## Pixels -/

/-- No two pixels are kept in one place. -/
theorem position_inj {x x' : Fin 64} {y y' : Fin 32} :
    position x y = position x' y' ↔ x = x' ∧ y = y' := by
  simp only [position, Fin.ext_iff]
  omega

/-- A pixel that is on lies on the screen. -/
theorem lt_of_pixel {s : Screen} {x y : Nat} (h : s.pixel x y = true) : x < 64 ∧ y < 32 := by
  unfold pixel at h
  split at h
  · assumption
  · cases h

theorem pixel_eq_false {s : Screen} {x y : Nat} (h : ¬ (x < 64 ∧ y < 32)) :
    s.pixel x y = false :=
  dif_neg h

@[simp]
theorem pixel_blank (x y : Nat) : blank.pixel x y = false := by
  unfold pixel blank
  split
  · simp
  · rfl

@[simp]
theorem pixel_ofFn (lit : Nat → Nat → Bool) (x y : Nat) :
    (ofFn lit).pixel x y = (decide (x < 64 ∧ y < 32) && lit y x) := by
  unfold pixel ofFn
  split
  · rename_i h
    have hrow : (y * 64 + x) / 64 = y := by omega
    have hcolumn : (y * 64 + x) % 64 = x := by omega
    simp [position, h, hrow, hcolumn]
  · rename_i h
    simp [h]

/-- A pixel is all there is in its own column and row. -/
theorem anyOn_eq_pixel (s : Screen) {columns rows : List Nat} {x y : Nat}
    (hcolumns : ∀ i, i ∈ columns ↔ i = x) (hrows : ∀ i, i ∈ rows ↔ i = y) :
    s.anyOn columns rows = s.pixel x y := by
  rw [Bool.eq_iff_iff]
  simp [anyOn, hcolumns, hrows]

/-- Screens with the same pixels are equal. -/
theorem ext_pixel {s t : Screen} (h : ∀ x y, s.pixel x y = t.pixel x y) : s = t := by
  obtain ⟨s⟩ := s
  obtain ⟨t⟩ := t
  congr 1
  apply Vector.ext
  intro k hk
  have hcolumn : k % 64 < 64 := by omega
  have hrow : k / 64 < 32 := by omega
  have hposition : k / 64 * 64 + k % 64 = k := by omega
  have hpixel := h (k % 64) (k / 64)
  simp only [pixel, hcolumn, hrow, and_self, dite_true, position, Fin.getElem_fin] at hpixel
  simpa only [hposition] using hpixel

end Screen

end Chip8
