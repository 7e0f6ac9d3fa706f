import Chip8.Host.Frame

/-!
# The fidelity of frames

A scale of 256 or less makes a window that the window system can show, and nothing wraps
around or is rounded on the way. The blocks are then exactly the squares of the window
(`span_of_le`, `window_of_le`), so who reads a frame sees the screen (`reading_eq_screen`)
in squares that have one colour each (`isPlain_of_le`).

Of a larger scale a window has only the lower 27 bits (`sides_of_window`). If one opens, the
scale is so large that the block of the first pixel takes all of it (`reading_of_gt`).
-/

namespace Chip8.Host

/-! ## The window -/

/-- What the window system is given for a side of up to 64 pixels. -/
theorem Settings.toNat_side (s : Settings) {count : Nat} (hcount : count ≤ 64) :
    (UInt32.ofNat count * s.zoom).toNat = count * s.zoom.toNat % 4294967296 := by
  rw [UInt32.toNat_mul, UInt32.toNat_ofNat', Nat.mod_eq_of_lt (by omega : count < 2 ^ 32)]

theorem Settings.exists_window_of_le {s : Settings} (h : s.zoom.toNat % 134217728 ≤ 256) :
    ∃ window, s.window = .ok window := by
  have hwidth := s.toNat_side (Nat.le_refl 64)
  have hheight := s.toNat_side (by decide : 32 ≤ 64)
  unfold Settings.window Window.create Screen.width Screen.height
  rw [hwidth, hheight, if_neg (by omega), if_neg (by omega), if_neg (by omega)]
  exact ⟨_, rfl⟩

/-- Only the lower 27 bits of the scale show in a window, and there they are those of a
small scale. -/
theorem Settings.sides_of_window {s : Settings} {window : Window}
    (h : s.window = .ok window) :
    s.zoom.toNat % 134217728 ≤ 256
      ∧ window.width.toNat = max 1 (64 * (s.zoom.toNat % 134217728))
      ∧ window.height.toNat = max 1 (32 * (s.zoom.toNat % 134217728)) := by
  have hwidth := s.toNat_side (Nat.le_refl 64)
  have hheight := s.toNat_side (by decide : 32 ≤ 64)
  unfold Settings.window Window.create Screen.width Screen.height at h
  rw [hwidth, hheight] at h
  split at h
  · cases h
  split at h
  · cases h
  split at h
  · cases h
  -- a side of no points becomes one
  have hone {side : UInt32} :
      (if side = 0 then 1 else side : UInt32).toNat = max 1 side.toNat := by
    split
    · rename_i hzero
      rw [hzero]
      rfl
    · rename_i hne
      have : side.toNat ≠ 0 := fun h0 => hne (UInt32.toNat_inj.mp h0)
      omega
  cases h
  refine ⟨by omega, ?_, ?_⟩
  · rw [hone, hwidth]
    omega
  · rw [hone, hheight]
    omega

/-- There is a window, and it has exactly the points of the blocks of all pixels. -/
theorem Settings.window_of_le {s : Settings} (hscale : s.zoom.toNat ≤ 256) :
    ∃ w : Window, s.window = .ok w ∧ w.width.toNat = 64 * s.zoom.toNat
      ∧ w.height.toNat = 32 * s.zoom.toNat := by
  have hpos := s.zoom_pos
  obtain ⟨w, hwindow⟩ := exists_window_of_le (s := s) (by omega)
  obtain ⟨-, hwidth, hheight⟩ := sides_of_window hwindow
  exact ⟨w, hwindow, by omega, by omega⟩

/-! ## The blocks -/

/-- The place of a block is computed without wrapping around. -/
theorem Settings.product_of_le {s : Settings} (hscale : s.zoom.toNat ≤ 256) {k : Nat}
    (hk : k < 64) :
    (Int32.ofNat k * s.zoom.toInt32).toInt = (k * s.zoom.toNat : Nat) := by
  have hk' : (Int32.ofNat k).toInt = k := Int32.toInt_ofNat_of_lt (by omega)
  have hz : s.zoom.toInt32.toInt = s.zoom.toNat := by
    show s.zoom.toBitVec.toInt = s.zoom.toBitVec.toNat
    rw [BitVec.toInt_eq_toNat_bmod]
    have : s.zoom.toBitVec.toNat ≤ 256 := hscale
    exact Int.bmod_eq_of_le (by omega) (by omega)
  have hle : k * s.zoom.toNat ≤ 63 * 256 := Nat.mul_le_mul (by omega) hscale
  rw [Int32.toInt_mul, hk', hz, ← Int.natCast_mul]
  exact Int.bmod_eq_of_le (by omega) (by omega)

/-- Blocks are as wide as the scale and stand side by side. -/
theorem Settings.span_of_le {s : Settings} (hscale : s.zoom.toNat ≤ 256) {k : Nat}
    (hk : k < 64) :
    s.span k = ⟨k * s.zoom.toNat, k * s.zoom.toNat + s.zoom.toNat⟩ := by
  have hle : k * s.zoom.toNat ≤ 63 * 256 := Nat.mul_le_mul (by omega) hscale
  simp only [span, Coordinate.position, Coordinate.length, product_of_le hscale hk]
  rw [Coordinate.kept_of_lt (by omega), Coordinate.kept_of_lt (by omega), Int.natCast_mul]

/-- The first point of a square is in the block of the pixel with the same number alone. -/
theorem Settings.pixelsAt_first {s : Settings} (hscale : s.zoom.toNat ≤ 256) {count k : Nat}
    (hcount : count ≤ 64) (hk : k < count) (i : Nat) :
    i ∈ s.pixelsAt count (k * s.zoom.toNat) ↔ i = k := by
  have hpos := s.zoom_pos
  simp only [pixelsAt, List.mem_filter, List.mem_range]
  constructor
  · rintro ⟨hi, hin⟩
    rw [span_of_le hscale (by omega)] at hin
    simp only [Span.contains, Bool.and_eq_true, decide_eq_true_eq] at hin
    have hle : i * s.zoom.toNat ≤ k * s.zoom.toNat := by exact_mod_cast hin.1
    have hlt : k * s.zoom.toNat < (i + 1) * s.zoom.toNat := by
      rw [Nat.succ_mul]
      exact_mod_cast hin.2
    have := Nat.le_of_mul_le_mul_right hle hpos
    have := Nat.lt_of_mul_lt_mul_right hlt
    omega
  · rintro rfl
    refine ⟨hk, ?_⟩
    rw [span_of_le hscale (by omega)]
    simp only [Span.contains, Bool.and_eq_true, decide_eq_true_eq]
    omega

/-- No block begins or ends inside a square. -/
theorem Settings.squares_of_le {s : Settings} (hscale : s.zoom.toNat ≤ 256) {count : Nat}
    (hcount : count ≤ 64) :
    s.squares count s.zoom.toNat
      = (List.range count).map fun (k : Nat) => [s.pixelsAt count (k * s.zoom.toNat)] := by
  have hinside : ∀ k i : Nat, ¬ (k * s.zoom.toNat < i * s.zoom.toNat
      ∧ i * s.zoom.toNat < (k + 1) * s.zoom.toNat) := by
    rintro k i ⟨h1, h2⟩
    have := Nat.lt_of_mul_lt_mul_right h1
    have := Nat.lt_of_mul_lt_mul_right h2
    omega
  unfold squares
  apply List.map_congr_left
  intro k _
  have hnone : (s.edges count).filter (fun e : Int => decide ((k * s.zoom.toNat : Int) < e)
      && decide (e < k * s.zoom.toNat + s.zoom.toNat)) = [] := by
    rw [List.filter_eq_nil_iff]
    intro e he
    simp only [edges, List.mem_flatMap, List.mem_range, List.mem_cons, List.not_mem_nil,
      or_false] at he
    obtain ⟨i, hi, he⟩ := he
    rw [span_of_le hscale (by omega)] at he
    dsimp only at he
    have h0 := hinside k i
    have h1 := hinside k (i + 1)
    rw [Nat.succ_mul] at h0 h1
    rw [Nat.succ_mul] at h1
    simp only [Bool.and_eq_true, decide_eq_true_eq]
    rcases he with rfl | rfl
    · exact_mod_cast h0
    · exact_mod_cast h1
  show ((k * s.zoom.toNat : Int) :: (s.edges count).filter _).map _ = _
  rw [hnone]
  rfl

/-! ## Frames -/

/-- A square has the scale as its side. -/
theorem Frame.square_of_le {f : Frame} (hscale : f.settings.zoom.toNat ≤ 256)
    (hwindow : f.settings.window = .ok f.window) :
    f.squareWidth = f.settings.zoom.toNat ∧ f.squareHeight = f.settings.zoom.toNat := by
  obtain ⟨w, hw, hwidth, hheight⟩ := f.settings.window_of_le hscale
  rw [hwindow] at hw
  cases hw
  rw [squareWidth, squareHeight, hwidth, hheight, Screen.width, Screen.height]
  omega

/-- A pixel is read from the upper left point of its square. -/
theorem Frame.pixel_reading (f : Frame) {x y : Nat} (hx : x < 64) (hy : y < 32) :
    f.reading.pixel x y = f.isWhite (x * f.squareWidth) (y * f.squareHeight) := by
  rw [reading, Screen.pixel_ofFn, decide_eq_true ⟨hx, hy⟩, Bool.true_and, isWhite]
  simp [hx, hy, Screen.width, Screen.height]

/-- A frame shows the screen. -/
theorem Frame.reading_eq_screen {f : Frame} (hscale : f.settings.zoom.toNat ≤ 256)
    (hwindow : f.settings.window = .ok f.window) : f.reading = f.screen := by
  obtain ⟨hcolumn, hrow⟩ := f.square_of_le hscale hwindow
  apply Screen.ext_pixel
  intro x y
  by_cases hxy : x < 64 ∧ y < 32
  · rw [f.pixel_reading hxy.1 hxy.2, hcolumn, hrow]
    apply Screen.anyOn_eq_pixel
    · exact f.settings.pixelsAt_first hscale (Nat.le_refl 64) hxy.1
    · exact f.settings.pixelsAt_first hscale (by decide : 32 ≤ 64) hxy.2
  · have hoff (s : Screen) : s.pixel x y = false :=
      Bool.eq_false_iff.mpr fun h => hxy (Screen.lt_of_pixel h)
    rw [hoff, hoff]

/-- Every square has one colour. -/
theorem Frame.isPlain_of_le {f : Frame} (hscale : f.settings.zoom.toNat ≤ 256)
    (hwindow : f.settings.window = .ok f.window) : f.isPlain = true := by
  obtain ⟨hcolumn, hrow⟩ := f.square_of_le hscale hwindow
  rw [isPlain, hcolumn, hrow, Settings.squares_of_le hscale (by decide),
    Settings.squares_of_le hscale (by decide)]
  simp

/-! ## Larger scales -/

/-- In a window that should have been refused, the block of the first pixel takes every
point. -/
theorem Settings.zero_mem_pixelsAt {s : Settings} (hscale : 134217728 ≤ s.zoom.toNat)
    {count : Nat} (hcount : 0 < count) {p : Nat} (hp : p < 8388608) :
    0 ∈ s.pixelsAt count p := by
  have hfirst : Coordinate.position (Int32.ofNat 0 * s.zoom.toInt32) = 0 := by
    rw [show Int32.ofNat 0 = 0 from rfl, Int32.zero_mul]
    rfl
  have hlength : 8388608 ≤ Coordinate.length s.zoom := Coordinate.le_kept (by omega)
  rw [pixelsAt, List.mem_filter, List.mem_range, span, hfirst]
  refine ⟨hcount, ?_⟩
  simp only [Span.contains, Bool.and_eq_true, decide_eq_true_eq]
  omega

/-- With a larger scale a frame is white all over if the pixel in the upper left corner is
on. -/
theorem Frame.reading_of_gt {f : Frame} (hscale : 256 < f.settings.zoom.toNat)
    (hwindow : f.settings.window = .ok f.window) (hcorner : f.screen.pixel 0 0 = true)
    {x y : Nat} (hx : x < 64) (hy : y < 32) : f.reading.pixel x y = true := by
  obtain ⟨hmod, hwidth, hheight⟩ := Settings.sides_of_window hwindow
  have hlarge : 134217728 ≤ f.settings.zoom.toNat := by omega
  have hcolumn : x * f.squareWidth < 8388608 := by
    have hle : x * f.squareWidth ≤ 64 * (f.window.width.toNat / 64) :=
      Nat.mul_le_mul (Nat.le_of_lt hx) (Nat.le_refl _)
    omega
  have hrow : y * f.squareHeight < 8388608 := by
    have hle : y * f.squareHeight ≤ 32 * (f.window.height.toNat / 32) :=
      Nat.mul_le_mul (Nat.le_of_lt hy) (Nat.le_refl _)
    omega
  have hx0 := Settings.zero_mem_pixelsAt hlarge (by decide : 0 < Screen.width) hcolumn
  have hy0 := Settings.zero_mem_pixelsAt hlarge (by decide : 0 < Screen.height) hrow
  rw [f.pixel_reading hx hy, isWhite, Screen.anyOn, List.any_eq_true]
  exact ⟨0, hy0, List.any_eq_true.mpr ⟨0, hx0, hcorner⟩⟩

end Chip8.Host
