import Chip8.Host.Event
import Chip8.Host.Window
import Chip8.Machine.Run

/-!
# Sessions

The host runs a machine in turns. At each turn it learns how much time has passed and
which events have come. It acts on the events in order; then a machine that is not paused
runs the cycles that are due, and a picture of its screen is shown. A session ends when
the user quits or a step fails, and no picture is shown for that turn.

Time is counted in whole microseconds. What has passed and does not fill a cycle stays
pending; pausing and resuming set it to zero, and what passes in a pause is not counted.
Above a million cycles in a second the delay between cycles is zero. Then cycles are due
for ever, and only a failing step ends the turn; `patience` says how many cycles of such a
turn are looked at.
-/

namespace Chip8.Host

/-- Whether the machine is to run. -/
inductive Mode where
  | running
  | paused
  | quit
deriving DecidableEq

/-- What pausing and resuming make of a mode; who has quit stays so. -/
def Mode.toggle : Mode → Mode
  | running => paused
  | paused => running
  | quit => quit

/-- A machine with its records, whether it is to run, and the time in microseconds that no
cycle has been run for. -/
structure Session where
  recorder : Recorder
  mode : Mode := .running
  pending : Nat := 0

/-- The nanoseconds since the turn before, and what has happened since. -/
structure Turn where
  elapsed : Nat
  events : List Event := []
deriving DecidableEq

/-- The microseconds of a cycle; a speed of zero counts as one. -/
def Settings.cycleDelay (s : Settings) : Nat := 1000000 / max s.speed.toNat 1

/-- How a session ends. -/
inductive Ending (ε : Type) where
  | quit
  | failed (reason : ε)
  /-- The session was not followed to its end. -/
  | unsettled
deriving DecidableEq

/-- The same ending, with the reason for a failure seen from further away. -/
def Ending.map {ε δ : Type} (f : ε → δ) : Ending ε → Ending δ
  | quit => quit
  | failed reason => failed (f reason)
  | unsettled => unsettled

/-- Where running the cycles that are due has led. -/
inductive CatchUp where
  | settled (recorder : Recorder) (pending : Nat)
  | failed (recorder : Recorder) (error : Error)
  | unsettled (recorder : Recorder)

/-- Runs the cycles that are due, `fuel` of them at most. -/
def catchUp (delay : Nat) (fuel : Nat) (pending : Nat) (r : Recorder) : CatchUp :=
  match fuel with
  | 0 => .unsettled r
  | fuel + 1 =>
    if pending < delay then .settled r pending
    else
      match r.step with
      | (r, none) => catchUp delay fuel (pending - delay) r
      | (r, some e) => .failed r e

/-- More cycles than anybody waits for. -/
def longPatience : Nat := 1000000000000

/-- Enough fuel for all cycles that are due, if they come to an end at all. -/
def catchUpFuel (delay patience pending : Nat) : Nat :=
  if delay = 0 then patience else pending / delay + 1

namespace Session

def act (s : Session) : Action → Session
  | .setKey key down =>
    { s with recorder := s.recorder.modify (·.setKey (UInt8.ofNat key.val) down) }
  | .togglePause => { s with mode := s.mode.toggle, pending := 0 }
  | .quit => { s with mode := .quit }

def receive (s : Session) (e : Event) : Session :=
  match e.action? with
  | some action => s.act action
  | none => s

def receiveAll (s : Session) (events : List Event) : Session := events.foldl receive s

inductive TurnEnd where
  /-- A picture is shown and the next turn comes. -/
  | shown (session : Session)
  | quit (recorder : Recorder)
  | failed (recorder : Recorder) (error : Error)
  /-- The turn was not followed to its end. -/
  | unsettled (recorder : Recorder)

def turn (delay patience : Nat) (s : Session) (t : Turn) : TurnEnd :=
  match s.receiveAll t.events with
  | ⟨recorder, .quit, _⟩ => .quit recorder
  | ⟨recorder, .paused, pending⟩ => .shown ⟨recorder, .paused, pending⟩
  | ⟨recorder, .running, pending⟩ =>
    let due := pending + t.elapsed / 1000
    match catchUp delay (catchUpFuel delay patience due) due recorder with
    | .settled recorder pending => .shown ⟨recorder, .running, pending⟩
    | .failed recorder e => .failed recorder e
    | .unsettled recorder => .unsettled recorder

/-- What has become of a session: the screens shown, the machine and its records, and the
ending. -/
structure Result where
  screens : Array Screen
  recorder : Recorder
  ending : Ending Error

/-- Plays the turns of a script after `shown` screens. After the last turn the user quits. -/
def play (delay patience : Nat) (s : Session) (turns : List Turn)
    (shown : Array Screen := #[]) :
    Result :=
  match turns with
  | [] => ⟨shown, s.recorder, .quit⟩
  | t :: rest =>
    match s.turn delay patience t with
    | .shown s => s.play delay patience rest (shown.push s.recorder.machine.screen)
    | .quit recorder => ⟨shown, recorder, .quit⟩
    | .failed recorder e => ⟨shown, recorder, .failed e⟩
    | .unsettled recorder => ⟨shown, recorder, .unsettled⟩

end Session

/-- With a delay there is always enough fuel. -/
theorem catchUp_ne_unsettled {delay pending : Nat} (hdelay : 0 < delay) (r r' : Recorder)
    (patience : Nat) :
    catchUp delay (catchUpFuel delay patience pending) pending r ≠ .unsettled r' := by
  rw [catchUpFuel, if_neg (by omega)]
  generalize hfuel : pending / delay = cycles
  induction cycles generalizing pending r with
  | zero =>
    have : pending < delay := by
      rw [Nat.div_eq_zero_iff] at hfuel
      omega
    simp [catchUp, this]
  | succ cycles ih =>
    have hle : delay ≤ pending := by
      rw [← Nat.not_lt]
      intro hlt
      rw [Nat.div_eq_of_lt hlt] at hfuel
      omega
    rw [catchUp, if_neg (by omega)]
    split
    · apply ih
      rw [Nat.div_eq_sub_div hdelay hle] at hfuel
      omega
    · intro h
      cases h

end Chip8.Host
