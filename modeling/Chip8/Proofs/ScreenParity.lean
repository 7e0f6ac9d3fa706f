import Chip8.Proofs.Frame
import Chip8.Proofs.Sprite
import Mathlib.Algebra.Ring.Parity
import Mathlib.Data.List.DropRight

/-!
# The screen over a run

A pixel is on iff an odd number of sprites has covered it since the screen was last
cleared (`pixel_run_iff`). Which sprite is drawn is told by the registers, the index and
memory at the moment when its word is fetched (`Machine.spriteCovers`), so the flag that
drawing leaves in the last register has no part in it, even where that register is an
operand.
-/

namespace Chip8.Machine

/-- Whether an input is a step on a word that clears the screen. -/
def clears (m : Machine) : Input → Bool
  | .step => m.fetch.family.val == 0x0 && m.fetch.n.val == 0x0
  | _ => false

/-- Whether an input is a step on a word that draws. -/
def draws (m : Machine) : Input → Bool
  | .step => m.fetch.family.val == 0xD
  | _ => false

/-- Whether the sprite that a word draws has a pixel in a column and a row. The start goes
round the screen, the sprite does not; its bytes go round memory. -/
def spriteCovers (m : Machine) (w : Word) (column row : Nat) : Bool :=
  let left := (m.reg w.x).toNat % 64
  let top := (m.reg w.y).toNat % 32
  decide (left ≤ column ∧ column < left + 8 ∧ top ≤ row ∧ row < top + w.n.val)
    && m.memory.bytes[(m.index.toNat + (row - top)) % 4096].toNat.testBit (7 - (column - left))

/-- Whether an input draws a sprite with a pixel in a column and a row. -/
def covers (m : Machine) (input : Input) (column row : Nat) : Bool :=
  m.draws input && m.spriteCovers m.fetch column row

/-- The part of a history after the last input that cleared the screen. -/
def sinceClear (moments : List (Machine × Input)) : List (Machine × Input) :=
  moments.rtakeWhile fun (m, input) => !m.clears input

/-- The number of sprites with a pixel in a column and a row that were drawn in a history
after the screen was last cleared. -/
def coverCount (moments : List (Machine × Input)) (column row : Nat) : Nat :=
  (sinceClear moments).countP fun (m, input) => m.covers input column row

/-! ## Clearing and drawing -/

theorem performed?_eq_clear_iff {m : Machine} {input : Input} :
    m.performed? input = some .clear ↔ m.clears input = true := by
  cases input with
  | step =>
    rw [performed?_step_eq_some_iff, next_eq_ok_iff, Instruction.decode?_eq_clear_iff]
    simp [clears, fault?, Fin.ext_iff]
  | _ => simp [performed?, clears]

theorem performed?_eq_draw_iff {m : Machine} {input : Input} {x y height : Nibble} :
    m.performed? input = some (.draw x y height)
      ↔ m.draws input = true ∧ x = m.fetch.x ∧ y = m.fetch.y ∧ height = m.fetch.n := by
  cases input with
  | step =>
    rw [performed?_step_eq_some_iff, next_eq_ok_iff, Instruction.decode?_eq_draw_iff]
    have hfamily : m.fetch.family = 0xD ↔ m.fetch.family.val = 0xD := Fin.ext_iff
    simp [draws, fault?, hfamily, -Word.val_family]
  | _ => simp [performed?, draws]

/-- The stamp of the sprite that a word draws. -/
def sprite (m : Machine) (w : Word) : Screen :=
  .stamp ((m.reg w.x).toNat % 64) ((m.reg w.y).toNat % 32) (m.memory.readBlock m.index w.n.val)

theorem pixel_sprite_iff {m : Machine} {w : Word} {column row : Nat} (hcolumn : column < 64)
    (hrow : row < 32) :
    (m.sprite w).pixel column row = true ↔ m.spriteCovers w column row = true := by
  rw [sprite, Screen.pixel_stamp_iff, Memory.getD_readBlock, spriteCovers, Bool.and_eq_true,
    decide_eq_true_eq]
  constructor
  · rintro ⟨-, ⟨hleft, hright, htop⟩, hbit⟩
    split at hbit
    · rename_i hheight
      rw [Screen.bit_eq_testBit _ (by omega)] at hbit
      exact ⟨⟨hleft, hright, htop, by omega⟩, hbit⟩
    · rw [Screen.bit_zero] at hbit
      cases hbit
  · rintro ⟨⟨hleft, hright, htop, hheight⟩, hbit⟩
    refine ⟨⟨hcolumn, hrow⟩, ⟨hleft, hright, htop⟩, ?_⟩
    rw [if_pos (by omega), Screen.bit_eq_testBit _ (by omega)]
    exact hbit

theorem screen_draw (m : Machine) (w : Word) :
    (m.draw w.x w.y w.n).screen = m.screen.xor (m.sprite w) := by
  rw [draw_eq]
  show (m.screen.draw _ _ _).1 = _
  rw [Screen.draw_eq, sprite]

theorem reg_flag_draw (m : Machine) (w : Word) :
    (m.draw w.x w.y w.n).reg flag = (m.screen.overlaps (m.sprite w)).toUInt8 := by
  rw [draw_eq]
  show (m.setFlag (m.screen.draw _ _ _).2).reg flag = _
  rw [reg_setFlag, if_pos rfl, Screen.draw_eq, sprite]

/-! ## One input -/

theorem screen_of_clears {m : Machine} {input : Input} (h : m.clears input = true) :
    (m.handle input).1.screen = .blank := by
  rw [screen_handle, performed?_eq_clear_iff.mpr h]

theorem screen_of_idle {m : Machine} {input : Input} (hclears : m.clears input = false)
    (hdraws : m.draws input = false) : (m.handle input).1.screen = m.screen := by
  rw [screen_handle]
  split
  · rename_i hperformed
    rw [performed?_eq_clear_iff, hclears] at hperformed
    cases hperformed
  · rename_i hperformed
    rw [performed?_eq_draw_iff, hdraws] at hperformed
    cases hperformed.1
  · rfl

/-- Drawing turns the pixels over that the sprite covers. -/
theorem pixel_of_draws {m : Machine} {input : Input} (h : m.draws input = true)
    {column row : Nat} (hcolumn : column < 64) (hrow : row < 32) :
    (m.handle input).1.screen.pixel column row
      = (m.screen.pixel column row ^^ m.covers input column row) := by
  have hperformed := performed?_eq_draw_iff.mpr ⟨h, rfl, rfl, rfl⟩
  rw [screen_handle, hperformed]
  show (m.draw m.fetch.x m.fetch.y m.fetch.n).screen.pixel column row = _
  rw [screen_draw, Screen.pixel_xor, covers, h, Bool.true_and,
    Bool.eq_iff_iff.mpr (pixel_sprite_iff hcolumn hrow)]

/-- Drawing leaves in the flag whether the sprite and the screen before had a pixel in
common. -/
theorem flag_of_draws {m : Machine} {input : Input} (h : m.draws input = true) :
    (m.handle input).1.reg flag = (m.screen.overlaps (m.sprite m.fetch)).toUInt8 := by
  obtain ⟨-, -, hhandle⟩ :=
    handle_of_performed (performed?_eq_draw_iff.mpr ⟨h, rfl, rfl, rfl⟩)
  rw [hhandle]
  exact reg_flag_draw m.advance m.fetch

theorem overlaps_sprite_iff {m : Machine} {input : Input} (h : m.draws input = true) :
    m.screen.overlaps (m.sprite m.fetch) = true
      ↔ ∃ column row, column < 64 ∧ row < 32
        ∧ m.covers input column row = true ∧ m.screen.pixel column row = true := by
  rw [Screen.overlaps_iff]
  constructor
  · rintro ⟨column, row, hon, hsprite⟩
    obtain ⟨hcolumn, hrow⟩ := Screen.lt_of_pixel hon
    refine ⟨column, row, hcolumn, hrow, ?_, hon⟩
    rw [covers, h, (pixel_sprite_iff hcolumn hrow).mp hsprite]
    rfl
  · rintro ⟨column, row, hcolumn, hrow, hcovers, hon⟩
    rw [covers, h, Bool.true_and] at hcovers
    exact ⟨column, row, hon, (pixel_sprite_iff hcolumn hrow).mpr hcovers⟩

/-! ## Runs -/

theorem coverCount_concat (moments : List (Machine × Input)) (m : Machine) (input : Input)
    (column row : Nat) :
    coverCount (moments ++ [(m, input)]) column row =
      if m.clears input then 0
      else coverCount moments column row + if m.covers input column row then 1 else 0 := by
  unfold coverCount sinceClear
  cases hclears : m.clears input with
  | true =>
    rw [List.rtakeWhile_concat_neg _ _ _ (by simp [hclears])]
    rfl
  | false =>
    rw [List.rtakeWhile_concat_pos _ _ _ (by simp [hclears]), List.countP_append,
      List.countP_singleton]
    rfl

theorem pixel_run_iff (random : RandomBytes) (inputs : List Input) {column row : Nat}
    (hcolumn : column < 64) (hrow : row < 32) :
    ((fresh random).run inputs).screen.pixel column row = true
      ↔ Odd (coverCount ((fresh random).history inputs) column row) := by
  -- the last input is taken off, since what counts comes after the last clear
  induction inputs using List.reverseRecOn with
  | nil =>
    show Screen.blank.pixel column row = true ↔ Odd 0
    simp
  | append_singleton before input ih =>
    rw [run_append, history_append]
    generalize (fresh random).history before = moments at ih ⊢
    generalize (fresh random).run before = m at ih ⊢
    show (m.handle input).1.screen.pixel column row = true
      ↔ Odd (coverCount (moments ++ [(m, input)]) column row)
    rw [coverCount_concat]
    cases hclears : m.clears input with
    | true =>
      rw [screen_of_clears hclears]
      simp
    | false =>
      cases hdraws : m.draws input with
      | true =>
        rw [pixel_of_draws hdraws hcolumn hrow]
        cases m.covers input column row with
        | true =>
          -- one more sprite turns both the pixel and the parity over
          simp [Nat.odd_add_one, ← ih]
        | false => simp [ih]
      | false =>
        rw [screen_of_idle hclears hdraws]
        simp [covers, hdraws, ih]

/-- **The screen is the sum of what was drawn.** In every state that a fresh machine
reaches, a pixel is on iff the number of sprites that have covered it since the last clear
is odd. On any machine, a step that draws succeeds and sets the flag iff the sprite covers
a pixel that was on; a step that clears succeeds; and an input that neither draws nor
clears, or that fails, leaves all pixels as they are. -/
theorem screen_parity (random : RandomBytes) (inputs : List Input) :
    (∀ column row, column < 64 → row < 32 →
      (((fresh random).run inputs).screen.pixel column row = true
        ↔ Odd (coverCount ((fresh random).history inputs) column row)))
      ∧ ∀ (m : Machine) (input : Input),
        (m.draws input = true →
          (m.handle input).2 = none
          ∧ ((∃ column row, column < 64 ∧ row < 32
              ∧ m.covers input column row = true ∧ m.screen.pixel column row = true)
            → (m.handle input).1.reg flag = 1)
          ∧ ((¬ ∃ column row, column < 64 ∧ row < 32
              ∧ m.covers input column row = true ∧ m.screen.pixel column row = true)
            → (m.handle input).1.reg flag = 0))
        ∧ (m.clears input = true → (m.handle input).2 = none)
        ∧ ((m.draws input = false ∧ m.clears input = false) ∨ (m.handle input).2 ≠ none →
          (m.handle input).1.screen = m.screen) := by
  refine ⟨fun column row => pixel_run_iff random inputs, ?_⟩
  intro m input
  have hdraw (h : m.draws input = true) : (m.handle input).2 = none := by
    obtain ⟨-, -, hhandle⟩ :=
      handle_of_performed (performed?_eq_draw_iff.mpr ⟨h, rfl, rfl, rfl⟩)
    rw [hhandle]
  have hclear (h : m.clears input = true) : (m.handle input).2 = none := by
    obtain ⟨-, -, hhandle⟩ := handle_of_performed (performed?_eq_clear_iff.mpr h)
    rw [hhandle]
  refine ⟨?_, hclear, ?_⟩
  · intro h
    rw [flag_of_draws h, ← overlaps_sprite_iff h]
    refine ⟨hdraw h, ?_, ?_⟩
    · intro hoverlaps
      rw [hoverlaps]
      rfl
    · intro hapart
      rw [Bool.not_eq_true] at hapart
      rw [hapart]
      rfl
  · rintro (⟨hdraws, hclears⟩ | hfails)
    · exact screen_of_idle hclears hdraws
    · -- what draws or clears does not fail
      apply screen_of_idle
      · exact Bool.eq_false_iff.mpr fun h => hfails (hclear h)
      · exact Bool.eq_false_iff.mpr fun h => hfails (hdraw h)

/-- A program that draws the glyph of 0 again and again. -/
def redraw : List UInt8 := [0xA0, 0x50, 0xD0, 0x05, 0xD0, 0x05]

/-- The glyph is there once, and drawing it again collides. -/
theorem screen_parity_of_redraw :
    let inputs : List Input := [.load redraw, .step, .step]
    let m := (fresh (.cycle #[])).run inputs
    Odd (coverCount ((fresh (.cycle #[])).history inputs) 3 4)
      ∧ m.screen.pixel 3 4 = true
      ∧ m.draws .step = true ∧ (m.handle .step).2 = none
      ∧ (m.handle .step).1.reg flag = 1 := by
  intro inputs m
  have hstates : coverCount ((fresh (.cycle #[])).history inputs) 3 4 = 1
      ∧ m.draws .step = true ∧ m.covers .step 3 4 = true := by decide +kernel
  obtain ⟨hcount, hdraws, hcovers⟩ := hstates
  have hodd : Odd (coverCount ((fresh (.cycle #[])).history inputs) 3 4) := hcount ▸ odd_one
  obtain ⟨hparity, hinputs⟩ := screen_parity (.cycle #[]) inputs
  have hon := (hparity 3 4 (by decide) (by decide)).mpr hodd
  obtain ⟨hflag, -, -⟩ := hinputs m .step
  obtain ⟨hsucceeds, hcollides, -⟩ := hflag hdraws
  exact ⟨hodd, hon, hdraws, hsucceeds,
    hcollides ⟨3, 4, by decide, by decide, hcovers, hon⟩⟩

end Chip8.Machine
