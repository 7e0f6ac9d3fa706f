import Chip8.Host.Coordinate
import Chip8.Host.Window

/-!
# Frames

A frame is a picture of the screen in a window: a black ground with a white block for
every pixel that is on. The places of the blocks are computed in machine words and kept as
coordinates, so for absurd scales they wrap around and are not exact.

Who looks at a frame divides it into as many squares as the screen has pixels.
`Frame.reading` is the screen that the upper left points of the squares show, and
`Frame.isPlain` tells whether every square has one colour.
-/

namespace Chip8.Host

/-- The points along an axis from `first` on and before `stop`. -/
structure Span where
  first : Int
  stop : Int
deriving DecidableEq

/-- Whether a point is in a span. -/
def Span.contains (s : Span) (p : Int) : Bool := s.first ≤ p && p < s.stop

namespace Settings

/-- The points along an axis that the block of the pixel with a number takes. -/
def span (s : Settings) (k : Nat) : Span :=
  let first := Coordinate.position (Int32.ofNat k * s.zoom.toInt32)
  ⟨first, first + Coordinate.length s.zoom⟩

/-- The numbers of the pixels, of `count` along an axis, whose blocks take a point. -/
def pixelsAt (s : Settings) (count : Nat) (p : Int) : List Nat :=
  (List.range count).filter fun k => (s.span k).contains p

/-- Where along an axis the blocks of `count` pixels begin or end. -/
def edges (s : Settings) (count : Nat) : List Int :=
  (List.range count).flatMap fun k => [(s.span k).first, (s.span k).stop]

/-- An axis divided into `count` squares of a side: for each square, the pixels at its
first point and at every edge inside it. The pixels are the same from one of these points
to the next. -/
def squares (s : Settings) (count side : Nat) : List (List (List Nat)) :=
  (List.range count).map fun (k : Nat) =>
    let first : Int := k * side
    let inside := (s.edges count).filter fun e => first < e && e < first + side
    (first :: inside).map (s.pixelsAt count)

end Settings

/-- A picture of the screen in a window. -/
structure Frame where
  settings : Settings
  window : Window
  screen : Screen

namespace Frame

/-- The side of a square in a row of squares. -/
def squareWidth (f : Frame) : Nat := f.window.width.toNat / Screen.width

/-- The side of a square in a column of squares. -/
def squareHeight (f : Frame) : Nat := f.window.height.toNat / Screen.height

/-- Whether a point of the picture is white: it is in the block of a pixel that is on. -/
def isWhite (f : Frame) (x y : Int) : Bool :=
  f.screen.anyOn (f.settings.pixelsAt Screen.width x) (f.settings.pixelsAt Screen.height y)

/-- The screen that the upper left points of the squares show. -/
def reading (f : Frame) : Screen :=
  let columns := (List.range Screen.width).map fun (x : Nat) =>
    f.settings.pixelsAt Screen.width (x * f.squareWidth)
  let rows := (List.range Screen.height).map fun (y : Nat) =>
    f.settings.pixelsAt Screen.height (y * f.squareHeight)
  .ofFn fun y x => f.screen.anyOn (columns.getD x []) (rows.getD y [])

/-- Whether every square has one colour. -/
def isPlain (f : Frame) : Bool :=
  let columns := f.settings.squares Screen.width f.squareWidth
  let rows := f.settings.squares Screen.height f.squareHeight
  rows.all fun ys => columns.all fun xs =>
    let colours := ys.flatMap fun y => xs.map fun x => f.screen.anyOn x y
    colours.all id || !colours.any id

end Frame

end Chip8.Host
