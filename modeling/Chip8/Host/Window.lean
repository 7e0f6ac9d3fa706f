import Chip8.Screen

/-!
# The window

The screen is shown in a window that has a square block of points for every pixel. The
sides of the window are computed in machine words, so for absurd scales they wrap around.
The window system refuses sides of `2 ^ 31` points or more, the width first, and then
windows with a side of more than 16384 points; a side of no points becomes one.
-/

namespace Chip8.Host

/-- What the user chose: cycles in a second, and points in the side of a pixel's block. -/
structure Settings where
  speed : UInt32 := 100
  scale : UInt32 := 10
deriving DecidableEq

/-- The side of a pixel's block, which is never zero. -/
def Settings.zoom (s : Settings) : UInt32 := if s.scale = 0 then 1 else s.scale

/-- A block is never empty. -/
theorem Settings.zoom_pos (s : Settings) : 0 < s.zoom.toNat := by
  unfold zoom
  split
  · decide
  · rename_i h
    have : s.scale.toNat ≠ 0 := fun h0 => h (UInt32.toNat_inj.mp (by rw [h0]; rfl))
    omega

structure Window where
  width : UInt32
  height : UInt32
deriving DecidableEq

/-- Why there is no window. -/
inductive WindowError where
  /-- The width has 32 bits. -/
  | tooWide (width : UInt32)
  /-- The height has 32 bits, in a window of the given width. -/
  | tooHigh (width : UInt32)
  /-- A side is longer than the window system can handle. -/
  | tooLarge
deriving DecidableEq

/-- What a user is told. The number is the width, also where the height is at fault. -/
def WindowError.message : WindowError → String
  | tooWide width => s!"Window width ({width.toNat}) is too high."
  | tooHigh width => s!"Window height ({width.toNat}) is too high."
  | tooLarge => "SDL error: Window is too large."

/-- A window with sides of the given lengths. -/
def Window.create (width height : UInt32) : Except WindowError Window :=
  if 2147483648 ≤ width.toNat then .error (.tooWide width)
  else if 2147483648 ≤ height.toNat then .error (.tooHigh width)
  else if 16384 < width.toNat ∨ 16384 < height.toNat then .error .tooLarge
  else .ok ⟨if width = 0 then 1 else width, if height = 0 then 1 else height⟩

def Settings.window (s : Settings) : Except WindowError Window :=
  Window.create (UInt32.ofNat Screen.width * s.zoom) (UInt32.ofNat Screen.height * s.zoom)

end Chip8.Host
