import Chip8.Host.Frame
import Chip8.Host.Session
import Chip8.Text.Clip

/-!
# The host

The host needs a desktop to show its window on. It asks for the desktop, for a way to draw
on it and for the window, in this order, and the first thing it does not get ends it. Once
the window stands, it says so and plays the session.
-/

namespace Chip8.Host

/-- What stands in the way of a window. -/
structure Desktop where
  /-- Whether someone else holds the desktop. -/
  held : Bool := false
  /-- The way to draw that was asked for, if there is none of that name. -/
  missingDriver? : Option String := none
deriving DecidableEq

/-- Why the host gave up. -/
inductive Failure where
  | desktopHeld
  | noDriver (name : String)
  | noWindow (error : WindowError)
  | stopped (error : Error)
deriving DecidableEq

namespace Failure

/-- What could not be done. -/
def headline : Failure → String
  | desktopHeld => "failed to initialize SDL context"
  | noDriver _ => "failed to initialize video subsystem"
  | noWindow _ => "error creating window"
  | stopped _ => "emulation stopped"

/-- The bytes that the window system keeps of a complaint. -/
def complaintSize : Nat := 127

/-- Why it could not be done. A complaint that names what was asked for can be too long,
and is then clipped. -/
def cause : Failure → String
  | desktopHeld => "SDL error: Cannot initialize `Sdl` more than once at a time."
  | noDriver name => "SDL error: " ++ Text.clip complaintSize (name ++ " not available")
  | noWindow error => error.message
  | stopped error => error.message

end Failure

/-- What the host has shown and recorded, and how it ended. -/
structure Result where
  frames : Array Frame
  log : Array Record
  ending : Ending Failure

/-- The window on a desktop. -/
def openWindow (settings : Settings) (desktop : Desktop) : Except Failure Window := do
  if desktop.held then throw .desktopHeld
  match desktop.missingDriver? with
  | some name => throw (.noDriver name)
  | none =>
    match settings.window with
    | .ok window => return window
    | .error e => throw (.noWindow e)

/-- Runs a machine on a desktop over the turns of a script. -/
def run (settings : Settings) (desktop : Desktop) (patience : Nat) (r : Recorder)
    (turns : List Turn) : Result :=
  match openWindow settings desktop with
  | .error failure => ⟨#[], r.log, .failed failure⟩
  | .ok window =>
    let log := r.filter.note r.log (.running settings.speed settings.scale)
    let started := { r with log := log }
    let result := Session.play settings.cycleDelay patience { recorder := started } turns
    ⟨result.screens.map fun screen => ⟨settings, window, screen⟩, result.recorder.log,
      result.ending.map .stopped⟩

end Chip8.Host
