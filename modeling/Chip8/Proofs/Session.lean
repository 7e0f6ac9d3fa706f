import Chip8.Proofs.CatchUp
import Mathlib.Algebra.Ring.Nat

/-!
# Turns of a session

What a turn makes of a session. Its events hand keys to the machine
(`recorder_receiveAll`) and decide, without a look at the machine, whether it is to run
and what time is pending (`receiveAll_congr`). A turn in which the machine runs is then
the loop of `settle` (`turn_of_running`). Over several turns, `cyclesOver` counts the
steps and `inputsOver` lists everything that is handed to the machine (`recorder_after?`).
-/

namespace Chip8.Host

/-- What an event hands to the machine. -/
def Event.input? (e : Event) : Option Input :=
  match e.action? with
  | some (.setKey key down) => some (.setKey (UInt8.ofNat key.val) down)
  | _ => none

namespace Turn

/-- Whether an event of the turn pauses or resumes. -/
def toggles (t : Turn) : Bool := t.events.any fun e => e.action? == some .togglePause

/-- The microseconds of the turn, rounded down. -/
def micros (t : Turn) : Nat := t.elapsed / 1000

end Turn

def totalMicros (turns : List Turn) : Nat := (turns.map Turn.micros).sum

theorem totalMicros_cons (t : Turn) (rest : List Turn) :
    totalMicros (t :: rest) = t.micros + totalMicros rest := rfl

namespace Session

/-! ## Events -/

theorem recorder_receive (s : Session) (e : Event) :
    (s.receive e).recorder = s.recorder.run e.input?.toList := by
  unfold receive Event.input?
  rcases e.action? with _ | ⟨key, down⟩ | _ | _ <;> rfl

theorem recorder_receiveAll (s : Session) (events : List Event) :
    (s.receiveAll events).recorder = s.recorder.run (events.filterMap Event.input?) := by
  induction events generalizing s with
  | nil => rfl
  | cons e rest ih =>
    show ((s.receive e).receiveAll rest).recorder = _
    rw [ih, recorder_receive, List.filterMap_cons]
    cases e.input? <;> rfl

/-- Pausing and resuming leave no time pending. Nothing else takes any time away. -/
theorem pending_receive (s : Session) (e : Event) :
    (s.receive e).pending = if e.action? = some .togglePause then 0 else s.pending := by
  unfold receive
  rcases e.action? with _ | ⟨key, down⟩ | _ | _ <;> rfl

theorem pending_receiveAll (s : Session) (t : Turn) :
    (s.receiveAll t.events).pending = if t.toggles then 0 else s.pending := by
  unfold Turn.toggles
  induction t.events generalizing s with
  | nil => rfl
  | cons e rest ih =>
    show ((s.receive e).receiveAll rest).pending = _
    rw [ih, pending_receive, List.any_cons]
    by_cases htoggle : e.action? = some .togglePause
    · simp [htoggle]
    · simp [htoggle]

theorem receive_congr {s s' : Session} (hmode : s.mode = s'.mode)
    (hpending : s.pending = s'.pending) (e : Event) :
    (s.receive e).mode = (s'.receive e).mode
      ∧ (s.receive e).pending = (s'.receive e).pending := by
  unfold receive
  rcases e.action? with _ | ⟨key, down⟩ | _ | _
  · exact ⟨hmode, hpending⟩
  · exact ⟨hmode, hpending⟩
  · exact ⟨congrArg Mode.toggle hmode, rfl⟩
  · exact ⟨rfl, hpending⟩

theorem receiveAll_congr {s s' : Session} (hmode : s.mode = s'.mode)
    (hpending : s.pending = s'.pending) (events : List Event) :
    (s.receiveAll events).mode = (s'.receiveAll events).mode
      ∧ (s.receiveAll events).pending = (s'.receiveAll events).pending := by
  induction events generalizing s s' with
  | nil => exact ⟨hmode, hpending⟩
  | cons e rest ih =>
    obtain ⟨hmode', hpending'⟩ := receive_congr hmode hpending e
    exact ih hmode' hpending'

/-! ## One turn -/

variable {delay : Nat}

def due (s : Session) (t : Turn) : Nat := (s.receiveAll t.events).pending + t.micros

/-- The steps that are tried in a turn. -/
def cycles (delay patience : Nat) (s : Session) (t : Turn) : Nat :=
  match (s.receiveAll t.events).mode with
  | .running =>
    cyclesTried delay (catchUpFuel delay patience (s.due t)) (s.due t)
      (s.receiveAll t.events).recorder
  | _ => 0

theorem turn_of_running {s : Session} {t : Turn} (patience : Nat)
    (h : (s.receiveAll t.events).mode = .running) :
    s.turn delay patience t =
      match settle delay patience (s.due t) (s.receiveAll t.events).recorder with
      | .settled r left => .shown ⟨r, .running, left⟩
      | .failed r e => .failed r e
      | .unsettled r => .unsettled r := by
  rw [turn_eq, h]
  rfl

theorem turn_of_paused {s : Session} {t : Turn} (patience : Nat)
    (h : (s.receiveAll t.events).mode = .paused) :
    s.turn delay patience t = .shown (s.receiveAll t.events) := by
  rw [turn_eq, h]

theorem turn_of_quit {s : Session} {t : Turn} (patience : Nat)
    (h : (s.receiveAll t.events).mode = .quit) :
    s.turn delay patience t = .quit (s.receiveAll t.events).recorder := by
  rw [turn_eq, h]

theorem cycles_of_running {s : Session} {t : Turn} (patience : Nat)
    (h : (s.receiveAll t.events).mode = .running) :
    s.cycles delay patience t =
      cyclesTried delay (catchUpFuel delay patience (s.due t)) (s.due t)
        (s.receiveAll t.events).recorder := by
  rw [cycles, h]

/-- What a turn hands to the machine: its keys, and then its steps. -/
def inputs (delay patience : Nat) (s : Session) (t : Turn) : List Input :=
  t.events.filterMap Event.input? ++ Input.steps (s.cycles delay patience t)

/-- A turn that shows its screen has made of the machine what its inputs make of it. -/
theorem recorder_of_shown {s s' : Session} {t : Turn} {patience : Nat}
    (h : s.turn delay patience t = .shown s') :
    s'.recorder = s.recorder.run (s.inputs delay patience t) := by
  rw [inputs, Recorder.run_append, ← recorder_receiveAll]
  cases hmode : (s.receiveAll t.events).mode with
  | running =>
    have hloop := recorder_catchUp delay (catchUpFuel delay patience (s.due t)) (s.due t)
      (s.receiveAll t.events).recorder
    rw [turn_of_running patience hmode, settle] at h
    rw [cycles_of_running patience hmode, ← hloop]
    cases hcatch : catchUp delay (catchUpFuel delay patience (s.due t)) (s.due t)
        (s.receiveAll t.events).recorder with
    | settled r left =>
      rw [hcatch] at h
      cases h
      rfl
    | failed r e =>
      rw [hcatch] at h
      cases h
    | unsettled r =>
      rw [hcatch] at h
      cases h
  | paused =>
    rw [turn_of_paused patience hmode] at h
    cases h
    rw [cycles, hmode]
    rfl
  | quit =>
    rw [turn_of_quit patience hmode] at h
    cases h

/-- A turn in which the machine runs and no step fails runs a cycle for every whole delay
that is due.
-/
theorem turn_eq_shown (hdelay : 0 < delay) {s : Session} {t : Turn} (patience : Nat)
    (hmode : (s.receiveAll t.events).mode = .running)
    (hfails : ∀ r e, s.turn delay patience t ≠ .failed r e) :
    s.cycles delay patience t = s.due t / delay
      ∧ ∃ r, s.turn delay patience t = .shown ⟨r, .running, s.due t % delay⟩ := by
  rw [cycles_of_running patience hmode]
  rw [turn_of_running patience hmode] at hfails ⊢
  rcases settle_cases hdelay patience (s.due t) (s.receiveAll t.events).recorder with
    ⟨r, left, hsettle, -⟩ | ⟨r, e, hsettle⟩
  · obtain ⟨rfl, hcount⟩ := settle_eq_settled hdelay patience hsettle
    refine ⟨hcount, r, ?_⟩
    rw [hsettle]
  · rw [hsettle] at hfails
    exact absurd rfl (hfails r e)

/-! ## Several turns -/

/-- The session after some turns, if each of them shows its screen. -/
def after? (delay patience : Nat) (s : Session) : List Turn → Option Session
  | [] => some s
  | t :: rest =>
    match s.turn delay patience t with
    | .shown s' => s'.after? delay patience rest
    | _ => none

/-- The steps that are tried in each of some turns, for as long as the session goes on. -/
def cyclesOver (delay patience : Nat) (s : Session) : List Turn → List Nat
  | [] => []
  | t :: rest =>
    s.cycles delay patience t ::
      match s.turn delay patience t with
      | .shown s' => s'.cyclesOver delay patience rest
      | _ => []

/-- What some turns hand to the machine, for as long as the session goes on. -/
def inputsOver (delay patience : Nat) (s : Session) (turns : List Turn) : List Input :=
  (turns.zip (s.cyclesOver delay patience turns)).flatMap fun (t, count) =>
    t.events.filterMap Event.input? ++ Input.steps count

/-- The machine is not paused after the events of any of the turns, and no step fails. -/
def Steady (delay patience : Nat) (s : Session) : List Turn → Prop
  | [] => True
  | t :: rest =>
    (s.receiveAll t.events).mode = .running
      ∧ (∀ r e, s.turn delay patience t ≠ .failed r e)
      ∧ ∀ s', s.turn delay patience t = .shown s' → s'.Steady delay patience rest

theorem steady_cons {s s' : Session} {t : Turn} {rest : List Turn} {patience : Nat}
    (hmode : (s.receiveAll t.events).mode = .running)
    (hturn : s.turn delay patience t = .shown s') (hrest : s'.Steady delay patience rest) :
    s.Steady delay patience (t :: rest) := by
  refine ⟨hmode, ?_, ?_⟩
  · intro r e hfails
    rw [hturn] at hfails
    cases hfails
  · intro next hnext
    rw [hturn] at hnext
    cases hnext
    exact hrest

theorem after?_cons {s s' : Session} {t : Turn} {patience : Nat}
    (h : s.turn delay patience t = .shown s') (rest : List Turn) :
    s.after? delay patience (t :: rest) = s'.after? delay patience rest := by
  rw [after?, h]

theorem cyclesOver_cons {s s' : Session} {t : Turn} {patience : Nat}
    (h : s.turn delay patience t = .shown s') (rest : List Turn) :
    s.cyclesOver delay patience (t :: rest)
      = s.cycles delay patience t :: s'.cyclesOver delay patience rest := by
  rw [cyclesOver, h]

/-- The machine after some turns is what their inputs make of it. -/
theorem recorder_after? {s finish : Session} {turns : List Turn} {patience : Nat}
    (h : s.after? delay patience turns = some finish) :
    finish.recorder = s.recorder.run (s.inputsOver delay patience turns) := by
  induction turns generalizing s with
  | nil =>
    cases h
    rfl
  | cons t rest ih =>
    cases hturn : s.turn delay patience t with
    | shown s' =>
      rw [after?_cons hturn] at h
      rw [inputsOver, cyclesOver_cons hturn, List.zip_cons_cons, List.flatMap_cons,
        Recorder.run_append, ih h, recorder_of_shown hturn]
      rfl
    | quit r =>
      rw [after?, hturn] at h
      cases h
    | failed r e =>
      rw [after?, hturn] at h
      cases h
    | unsettled r =>
      rw [after?, hturn] at h
      cases h

end Session

end Chip8.Host
