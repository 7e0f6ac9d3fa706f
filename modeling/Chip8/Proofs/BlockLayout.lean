import Chip8.Host.Frame.Fidelity
import Chip8.Proofs.SessionOutcome

/-!
# The scales that are shown exactly

The sides of the window and the places of the blocks are products in machine words. A
scale of 256 or less is shown exactly: the blocks of the pixels are squares with the scale
as their side, each in its place, and make up the window (`Settings.Tiles`), and a point
of a frame is white iff it is in the block of a pixel that is on (`Frame.Faithful`).

A larger scale asks for a window that is too large, and should be refused. But the window
system is given the sides modulo `2 ^ 32`, in which only the lower 27 bits of the scale
show (`sides_of_window`). If these make a small scale, a window opens that is not the one
that was asked for. So the larger scales that are refused are those that are more than 256
modulo `2 ^ 27` (`exact_iff`).
-/

namespace Chip8.Host

/-- A point is in the block of a pixel. -/
def Settings.Covers (s : Settings) (x y : Nat) (p q : Int) : Prop :=
  (s.span x).contains p = true ∧ (s.span y).contains q = true

/-- The window consists of the blocks of the pixels, which are squares with the scale as
their side, each in its place. -/
structure Settings.Tiles (s : Settings) (window : Window) : Prop where
  sides : window.width.toNat = 64 * s.scale.toNat ∧ window.height.toNat = 32 * s.scale.toNat
  /-- No product wraps around. -/
  product : ∀ k : Nat, k < 64 →
    (Int32.ofNat k * s.zoom.toInt32).toInt = (k * s.scale.toNat : Nat)
  block : ∀ x y : Nat, x < 64 → y < 32 → ∀ p q : Int, s.Covers x y p q ↔
    ((x * s.scale.toNat : Nat) ≤ p ∧ p < ((x + 1) * s.scale.toNat : Nat))
      ∧ (y * s.scale.toNat : Nat) ≤ q ∧ q < ((y + 1) * s.scale.toNat : Nat)
  apart : ∀ x y x' y' : Nat, x < 64 → y < 32 → x' < 64 → y' < 32 → ∀ p q : Int,
    s.Covers x y p q → s.Covers x' y' p q → x = x' ∧ y = y'
  inside : ∀ x y : Nat, x < 64 → y < 32 → ∀ p q : Int, s.Covers x y p q →
    (0 ≤ p ∧ p < window.width.toNat) ∧ 0 ≤ q ∧ q < window.height.toNat

/-- A frame shows its screen: the blocks of the pixels that are on are white, and nothing
else is. -/
structure Frame.Faithful (f : Frame) : Prop where
  white : ∀ p q : Int, f.isWhite p q = true ↔
    ∃ x y : Nat, f.screen.pixel x y = true ∧ f.settings.Covers x y p q
  reading : f.reading = f.screen
  plain : f.isPlain = true

/-- What is promised for a scale: what a window shows is exact, and there is none if it
would be too large. -/
structure Settings.Exact (s : Settings) : Prop where
  shown : ∀ (desktop : Desktop) (window : Window), openWindow s desktop = .ok window →
    s.Tiles window ∧ ∀ patience r turns, ∀ frame ∈ (run s desktop patience r turns).frames,
      frame.settings = s ∧ frame.window = window ∧ frame.Faithful
  refused : 16384 < 64 * s.scale.toNat → ∀ patience r turns, ∃ e,
    run s {} patience r turns = ⟨#[], r.log, .failed (.noWindow e)⟩

namespace Settings

variable {s : Settings}

theorem zoom_eq_scale (h : s.scale ≠ 0) : s.zoom = s.scale := if_neg h

/-! ## Opening the window -/

theorem openWindow_of_window {window : Window} (h : s.window = .ok window) :
    openWindow s {} = .ok window := by
  unfold openWindow
  rw [h]
  rfl

theorem openWindow_of_error {e : WindowError} (h : s.window = .error e) :
    openWindow s {} = .error (.noWindow e) := by
  unfold openWindow
  rw [h]
  rfl

/-! ## The blocks -/

theorem covers_iff (hscale : s.zoom.toNat ≤ 256) {x y : Nat} (hx : x < 64) (hy : y < 32)
    (p q : Int) : s.Covers x y p q ↔
      ((x * s.zoom.toNat : Nat) ≤ p ∧ p < ((x + 1) * s.zoom.toNat : Nat))
        ∧ (y * s.zoom.toNat : Nat) ≤ q ∧ q < ((y + 1) * s.zoom.toNat : Nat) := by
  rw [Covers, span_of_le hscale hx, span_of_le hscale (by omega)]
  simp only [Span.contains, Bool.and_eq_true, decide_eq_true_eq, Nat.succ_mul,
    Int.natCast_add, Int.natCast_mul]

/-- Of two multiples of the scale, the lesser one begins a block that ends before the
other. -/
theorem eq_of_between {scale i k : Nat} {p : Int}
    (hi : (i * scale : Nat) ≤ p ∧ p < ((i + 1) * scale : Nat))
    (hk : (k * scale : Nat) ≤ p ∧ p < ((k + 1) * scale : Nat)) : i = k := by
  have hik : i * scale < (k + 1) * scale := by omega
  have hki : k * scale < (i + 1) * scale := by omega
  have := Nat.lt_of_mul_lt_mul_right hik
  have := Nat.lt_of_mul_lt_mul_right hki
  omega

theorem tiles_of_le (hpos : s.scale ≠ 0) (hscale : s.scale.toNat ≤ 256) {window : Window}
    (hwindow : s.window = .ok window) : s.Tiles window := by
  have hside : s.scale.toNat = s.zoom.toNat := by rw [zoom_eq_scale hpos]
  rw [hside] at hscale
  obtain ⟨window', hwindow', hwidth, hheight⟩ := window_of_le hscale
  obtain rfl := Except.ok.inj (hwindow.symm.trans hwindow')
  have hcovers {x y : Nat} (hx : x < 64) (hy : y < 32) := covers_iff hscale hx hy
  constructor
  case sides =>
    rw [hside]
    exact ⟨hwidth, hheight⟩
  case product =>
    rw [hside]
    exact fun k hk => product_of_le hscale hk
  case block =>
    rw [hside]
    exact fun x y hx hy => hcovers hx hy
  case apart =>
    intro x y x' y' hx hy hx' hy' p q h h'
    obtain ⟨hp, hq⟩ := (hcovers hx hy p q).mp h
    obtain ⟨hp', hq'⟩ := (hcovers hx' hy' p q).mp h'
    exact ⟨eq_of_between hp hp', eq_of_between hq hq'⟩
  case inside =>
    intro x y hx hy p q h
    obtain ⟨hp, hq⟩ := (hcovers hx hy p q).mp h
    -- the last block ends where the window does
    have hright : (x + 1) * s.zoom.toNat ≤ 64 * s.zoom.toNat := Nat.mul_le_mul_right _ hx
    have hlower : (y + 1) * s.zoom.toNat ≤ 32 * s.zoom.toNat := Nat.mul_le_mul_right _ hy
    omega

end Settings

/-! ## The frames -/

theorem Settings.mem_pixelsAt_iff (s : Settings) (count k : Nat) (p : Int) :
    k ∈ s.pixelsAt count p ↔ k < count ∧ (s.span k).contains p = true := by
  rw [pixelsAt, List.mem_filter, List.mem_range]

theorem Frame.isWhite_iff (f : Frame) (p q : Int) :
    f.isWhite p q = true
      ↔ ∃ x y : Nat, f.screen.pixel x y = true ∧ f.settings.Covers x y p q := by
  simp only [isWhite, Screen.anyOn, List.any_eq_true, Settings.mem_pixelsAt_iff]
  constructor
  · rintro ⟨y, ⟨-, hq⟩, x, ⟨-, hp⟩, hon⟩
    exact ⟨x, y, hon, hp, hq⟩
  · rintro ⟨x, y, hon, hp, hq⟩
    obtain ⟨hx, hy⟩ := Screen.lt_of_pixel hon
    exact ⟨y, ⟨hy, hq⟩, x, ⟨hx, hp⟩, hon⟩

theorem Frame.faithful_of_le {f : Frame} (hscale : f.settings.zoom.toNat ≤ 256)
    (hwindow : f.settings.window = .ok f.window) : f.Faithful :=
  ⟨f.isWhite_iff, reading_eq_screen hscale hwindow, isPlain_of_le hscale hwindow⟩

/-- The frames of a run are those of its own window. -/
theorem openWindow_of_mem_frames {s : Settings} {desktop : Desktop} {patience : Nat}
    {r : Recorder} {turns : List Turn} {frame : Frame}
    (h : frame ∈ (run s desktop patience r turns).frames) :
    frame.settings = s ∧ openWindow s desktop = .ok frame.window := by
  unfold run at h
  split at h
  · cases Array.not_mem_empty _ h
  · rename_i window hwindow
    obtain ⟨screen, -, rfl⟩ := Array.mem_map.mp h
    exact ⟨rfl, hwindow⟩

theorem Settings.exact_of_le {s : Settings} (hpos : s.scale ≠ 0)
    (hscale : s.scale.toNat ≤ 256) :
    s.Exact := by
  have hzoom : s.zoom.toNat ≤ 256 := by rwa [zoom_eq_scale hpos]
  constructor
  case shown =>
    intro desktop window hopened
    refine ⟨tiles_of_le hpos hscale (window_of_openWindow hopened), ?_⟩
    intro patience r turns frame hframe
    obtain ⟨hsettings, hwindow⟩ := openWindow_of_mem_frames hframe
    refine ⟨hsettings, Except.ok.inj (hwindow.symm.trans hopened), ?_⟩
    rw [← hsettings] at hzoom hwindow
    exact Frame.faithful_of_le hzoom (window_of_openWindow hwindow)
  case refused =>
    intro hlarge
    omega

/-- Without a window nothing is shown. -/
theorem Settings.exact_of_lt_mod {s : Settings} (h : 256 < s.zoom.toNat % 134217728) :
    s.Exact := by
  constructor
  case shown =>
    intro desktop window hopened
    have hle := (sides_of_window (window_of_openWindow hopened)).1
    omega
  case refused =>
    intro _ patience r turns
    cases hwindow : s.window with
    | ok window =>
      have hle := (sides_of_window hwindow).1
      omega
    | error e =>
      refine ⟨e, ?_⟩
      rw [run, openWindow_of_error hwindow]

/-- A window that should have been refused breaks the promise. -/
theorem Settings.not_exact_of_window {s : Settings} (hlarge : 16384 < 64 * s.scale.toNat)
    {window : Window} (h : s.window = .ok window) : ¬ s.Exact := by
  intro hexact
  obtain ⟨e, hrun⟩ := hexact.refused hlarge 0 { machine := .fresh (.cycle #[]) } []
  have hending := congrArg Result.ending hrun
  rw [run, openWindow_of_window h] at hending
  cases hending

/-- **The scales that are shown exactly.** They are those of 256 or less, and of the
larger ones those that are more than 256 modulo `2 ^ 27` too, with which there is no
window. Where there is a window, it is the one of the scale modulo `2 ^ 27`. -/
theorem exact_iff (s : Settings) (hpos : s.scale ≠ 0) :
    (s.Exact ↔ s.scale.toNat ≤ 256 ∨ 256 < s.scale.toNat % 134217728)
      ∧ ∀ window, s.window = .ok window →
        window.width.toNat = max 1 (64 * (s.scale.toNat % 134217728))
          ∧ window.height.toNat = max 1 (32 * (s.scale.toNat % 134217728)) := by
  have hside : s.zoom.toNat = s.scale.toNat := by rw [Settings.zoom_eq_scale hpos]
  refine ⟨⟨?_, ?_⟩, ?_⟩
  · intro hexact
    by_cases hsmall : s.scale.toNat ≤ 256
    · exact .inl hsmall
    · refine .inr ?_
      rw [← Nat.not_le, ← hside]
      intro hmod
      obtain ⟨window, hwindow⟩ := Settings.exists_window_of_le hmod
      exact Settings.not_exact_of_window (by omega) hwindow hexact
  · rintro (hsmall | hmod)
    · exact Settings.exact_of_le hpos hsmall
    · exact Settings.exact_of_lt_mod (by rwa [hside])
  · intro window hwindow
    rw [← hside]
    exact (Settings.sides_of_window hwindow).2

/-- The largest window, and a scale that is refused. -/
theorem exact_at_limit :
    Settings.Exact { scale := 256 } ∧ Settings.Exact { scale := 257 } :=
  ⟨(exact_iff _ (by decide)).1.mpr (by decide), (exact_iff _ (by decide)).1.mpr (by decide)⟩

/-- With a block of more than a hundred million points a window of 64 by 32 opens, and its
last point is white although the last pixel is off. -/
theorem wrapped_window_opens :
    let s : Settings := { speed := 1000, scale := 134217729 }
    let result := run s {} 0 { machine := drawingPixel } [⟨5000000, []⟩, ⟨20000000, []⟩]
    16384 < 64 * s.scale.toNat ∧ openWindow s {} = .ok ⟨64, 32⟩ ∧ ¬ s.Exact
      ∧ result.frames.map (fun frame => (frame.isWhite 63 31, frame.screen.pixel 63 31))
        = #[(true, false), (true, false)]
      ∧ result.ending = .quit := by
  intro s result
  have hlarge : 16384 < 64 * s.scale.toNat := by decide
  have hwindow : s.window = .ok ⟨64, 32⟩ := by decide +kernel
  refine ⟨hlarge, Settings.openWindow_of_window hwindow,
    Settings.not_exact_of_window hlarge hwindow, ?_⟩
  decide +kernel

end Chip8.Host
