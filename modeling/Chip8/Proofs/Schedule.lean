import Chip8.Proofs.Session

/-!
# Schedules

What a session has in store for its machine is settled by the script alone, as long as no
step fails. Its `Clock`, the mode and the pending time, goes on from turn to turn without
a look at the machine and gives each turn a `Task`: keys that move, and cycles that are
due after them. A session is then played by carrying its tasks out one after another
(`play_eq_perform`), so two scripts with the same tasks cannot be told apart.
-/

namespace Chip8

/-! ## Steps until one fails -/

namespace Machine

/-- No input of a run fails. -/
def Succeeds (m : Machine) (inputs : List Input) : Prop :=
  ∀ outcome ∈ m.outcomes inputs, outcome.2 = none

theorem succeeds_nil (m : Machine) : m.Succeeds [] := by
  intro outcome h
  cases h

theorem succeeds_cons {m : Machine} {input : Input} {rest : List Input} :
    m.Succeeds (input :: rest)
      ↔ (m.handle input).2 = none ∧ (m.handle input).1.Succeeds rest :=
  List.forall_mem_cons

theorem succeeds_append {m : Machine} {first second : List Input} :
    m.Succeeds (first ++ second) ↔ m.Succeeds first ∧ (m.run first).Succeeds second := by
  rw [Succeeds, outcomes_append]
  exact List.forall_mem_append

/-- Some steps all succeed, or there is one that fails first. -/
theorem steps_succeed_or_fail (m : Machine) (count : Nat) :
    m.Succeeds (Input.steps count) ∨ ∃ k e, k < count ∧ m.Succeeds (Input.steps k)
      ∧ (m.run (Input.steps k)).step.2 = some e := by
  induction count generalizing m with
  | zero => exact .inl m.succeeds_nil
  | succ count ih =>
    cases herror : m.step.2 with
    | some e => exact .inr ⟨0, e, Nat.succ_pos _, m.succeeds_nil, herror⟩
    | none =>
      rcases ih m.step.1 with hrest | ⟨k, e, hk, hbefore, hfails⟩
      · exact .inl (succeeds_cons.mpr ⟨herror, hrest⟩)
      · exact .inr ⟨k + 1, e, Nat.succ_lt_succ hk, succeeds_cons.mpr ⟨herror, hbefore⟩, hfails⟩

end Machine

namespace Recorder

theorem machine_run (r : Recorder) (inputs : List Input) :
    (r.run inputs).machine = r.machine.run inputs := by
  induction inputs generalizing r with
  | nil => rfl
  | cons input rest ih =>
    rw [run, ih, (r.machine_handle input).1]
    rfl

theorem steps_of_ok {r : Recorder} (h : r.step.2 = none) (count done : Nat) :
    r.steps (count + 1) done = r.step.1.steps count (done + 1) := by
  rw [steps]
  rcases hstep : r.step with ⟨next, _ | e⟩
  · rfl
  · rw [hstep] at h
    cases h

theorem steps_of_error {r : Recorder} {e : Error} (h : r.step.2 = some e) (count done : Nat) :
    r.steps (count + 1) done = ⟨r.step.1, done, some e⟩ := by
  rw [steps]
  rcases hstep : r.step with ⟨next, _ | e'⟩
  · rw [hstep] at h
    cases h
  · rw [hstep] at h
    cases h
    rfl

theorem run_steps_succ (r : Recorder) (count : Nat) :
    r.run (Input.steps (count + 1)) = r.step.1.run (Input.steps count) := rfl

theorem steps_of_succeeds {r : Recorder} {count : Nat}
    (h : r.machine.Succeeds (Input.steps count)) (done : Nat) :
    r.steps count done = ⟨r.run (Input.steps count), done + count, none⟩ := by
  induction count generalizing r done with
  | zero => rfl
  | succ count ih =>
    obtain ⟨herror, hrest⟩ := Machine.succeeds_cons.mp h
    have hnext : r.step.1.machine.Succeeds (Input.steps count) := by
      rw [r.machine_step]
      exact hrest
    rw [steps_of_ok (r.error_step.trans herror), ih hnext, run_steps_succ, Nat.add_right_comm,
      Nat.add_assoc]

/-- Nothing is done after a step that fails. -/
theorem steps_of_fails {r : Recorder} {count k : Nat} {e : Error} (hk : k < count)
    (hbefore : r.machine.Succeeds (Input.steps k))
    (hfails : (r.machine.run (Input.steps k)).step.2 = some e) (done : Nat) :
    r.steps count done = ⟨r.run (Input.steps (k + 1)), done + k, some e⟩ := by
  obtain ⟨count, rfl⟩ : ∃ n, count = n + 1 := ⟨count - 1, by omega⟩
  induction k generalizing r count done with
  | zero => exact steps_of_error (r.error_step.trans hfails) count done
  | succ k ih =>
    obtain ⟨herror, hrest⟩ := Machine.succeeds_cons.mp hbefore
    obtain ⟨count, rfl⟩ : ∃ n, count = n + 1 := ⟨count - 1, by omega⟩
    have hnext : r.step.1.machine.Succeeds (Input.steps k) := by
      rw [r.machine_step]
      exact hrest
    have hlast : (r.step.1.machine.run (Input.steps k)).step.2 = some e := by
      rw [r.machine_step]
      exact hfails
    rw [steps_of_ok (r.error_step.trans herror), ih hnext hlast _ _ (by omega),
      run_steps_succ _ (k + 1), Nat.add_right_comm, Nat.add_assoc]

end Recorder

namespace Host

/-! ## Clocks and tasks -/

/-- What a session keeps besides its machine. -/
structure Clock where
  mode : Mode := .running
  pending : Nat := 0
deriving DecidableEq

/-- What a turn asks of the machine. Keys come before cycles. -/
inductive Task where
  | run (keys : List Input) (cycles : Nat)
  /-- The machine is paused; its keys move all the same. -/
  | rest (keys : List Input)
  | quit (keys : List Input)

namespace Task

def keys : Task → List Input
  | run keys _ => keys
  | rest keys => keys
  | quit keys => keys

def cycles : Task → Nat
  | run _ cycles => cycles
  | _ => 0

def inputs (task : Task) : List Input := task.keys ++ Input.steps task.cycles

end Task

/-- The keys that move in a turn. -/
def Turn.keys (t : Turn) : List Input := t.events.filterMap Event.input?

namespace Clock

def act (c : Clock) : Action → Clock
  | .setKey _ _ => c
  | .togglePause => ⟨c.mode.toggle, 0⟩
  | .quit => { c with mode := .quit }

def receive (c : Clock) (e : Event) : Clock :=
  match e.action? with
  | some action => c.act action
  | none => c

def receiveAll (c : Clock) (events : List Event) : Clock := events.foldl receive c

/-- The time that cycles are run for in a turn, if any are. -/
def due (c : Clock) (t : Turn) : Nat := (c.receiveAll t.events).pending + t.micros

def task (delay : Nat) (c : Clock) (t : Turn) : Task :=
  match (c.receiveAll t.events).mode with
  | .running => .run t.keys (c.due t / delay)
  | .paused => .rest t.keys
  | .quit => .quit t.keys

/-- The clock after a turn in which no step has failed. -/
def next (delay : Nat) (c : Clock) (t : Turn) : Clock :=
  match (c.receiveAll t.events).mode with
  | .running => ⟨.running, c.due t % delay⟩
  | _ => c.receiveAll t.events

/-- The tasks of some turns. -/
def plan (delay : Nat) (c : Clock) : List Turn → List Task
  | [] => []
  | t :: rest => c.task delay t :: (c.next delay t).plan delay rest

end Clock

/-! ## Modes from turn to turn -/

/-- The mode after some events. -/
def Mode.after (mode : Mode) (events : List Event) : Mode :=
  (Clock.receiveAll ⟨mode, 0⟩ events).mode

namespace Clock

theorem mode_receive_congr {c c' : Clock} (h : c.mode = c'.mode) (e : Event) :
    (c.receive e).mode = (c'.receive e).mode := by
  unfold receive
  rcases e.action? with _ | ⟨key, down⟩ | _ | _
  · exact h
  · exact h
  · exact congrArg Mode.toggle h
  · rfl

theorem mode_receiveAll (c : Clock) (events : List Event) :
    (c.receiveAll events).mode = c.mode.after events := by
  have hcongr : ∀ {c c' : Clock}, c.mode = c'.mode →
      (c.receiveAll events).mode = (c'.receiveAll events).mode := by
    induction events with
    | nil => exact id
    | cons e rest ih => exact fun h => ih (mode_receive_congr h e)
  exact hcongr rfl

theorem mode_next (delay : Nat) (c : Clock) (t : Turn) :
    (c.next delay t).mode = c.mode.after t.events := by
  rw [← mode_receiveAll, next]
  cases h : (c.receiveAll t.events).mode <;> simp [h]

end Clock

theorem Mode.after_cons (mode : Mode) (e : Event) (rest : List Event) :
    mode.after (e :: rest) = (Clock.receive ⟨mode, 0⟩ e).mode.after rest :=
  Clock.mode_receiveAll (Clock.receive ⟨mode, 0⟩ e) rest

theorem Mode.after_append (mode : Mode) (first second : List Event) :
    mode.after (first ++ second) = (mode.after first).after second := by
  rw [after, Clock.receiveAll, List.foldl_append]
  exact Clock.mode_receiveAll _ second

/-! ## Carrying tasks out -/

/-- Where a task has led. -/
inductive TaskEnd where
  /-- A picture is shown and the next task comes. -/
  | shown (recorder : Recorder)
  | quit (recorder : Recorder)
  | failed (recorder : Recorder) (error : Error)

namespace Task

def carryOut (r : Recorder) : Task → TaskEnd
  | run keys cycles =>
    let stretch := (r.run keys).steps cycles
    match stretch.error? with
    | none => .shown stretch.recorder
    | some e => .failed stretch.recorder e
  | rest keys => .shown (r.run keys)
  | quit keys => .quit (r.run keys)

/-- The steps that a task tries: those that succeed, and the one that fails if there is
one. -/
def tried (r : Recorder) : Task → Nat
  | run keys cycles =>
    let stretch := (r.run keys).steps cycles
    match stretch.error? with
    | none => stretch.done
    | some _ => stretch.done + 1
  | _ => 0

end Task

/-- Carries tasks out after `shown` screens, until one of them quits or fails. -/
def perform (r : Recorder) (shown : Array Screen) : List Task → Session.Result
  | [] => ⟨shown, r, .quit⟩
  | task :: rest =>
    match task.carryOut r with
    | .shown r => perform r (shown.push r.machine.screen) rest
    | .quit r => ⟨shown, r, .quit⟩
    | .failed r e => ⟨shown, r, .failed e⟩

/-- The steps that each task tries, until one of them quits or fails. -/
def stepsTried (r : Recorder) : List Task → List Nat
  | [] => []
  | task :: rest =>
    task.tried r ::
      match task.carryOut r with
      | .shown r => stepsTried r rest
      | _ => []

variable {delay : Nat}

/-- The loop of a turn tries a step for every delay that is due. -/
theorem settle_eq_steps (hdelay : 0 < delay) (patience pending : Nat) (r : Recorder)
    (done : Nat) :
    settle delay patience pending r =
      match (r.steps (pending / delay) done).error? with
      | none => .settled (r.steps (pending / delay) done).recorder (pending % delay)
      | some e => .failed (r.steps (pending / delay) done).recorder e := by
  induction pending, delay using Nat.div.inductionOn generalizing r done with
  | ind pending delay hle ih =>
    rw [settle_of_le hdelay patience hle.2, Nat.div_eq_sub_div hdelay hle.2,
      Nat.mod_eq_sub_mod hle.2]
    cases herror : r.step.2 with
    | none =>
      rw [Recorder.steps_of_ok herror]
      exact ih hdelay r.step.1 (done + 1)
    | some e => rw [Recorder.steps_of_error herror]
  | base pending delay hle =>
    have hlt : pending < delay := by omega
    rw [settle_of_lt patience hlt, Nat.div_eq_of_lt hlt, Nat.mod_eq_of_lt hlt]
    rfl

theorem cyclesTried_eq_steps (hdelay : 0 < delay) (patience pending : Nat) (r : Recorder)
    (done : Nat) :
    done + cyclesTried delay (catchUpFuel delay patience pending) pending r =
      match (r.steps (pending / delay) done).error? with
      | none => (r.steps (pending / delay) done).done
      | some _ => (r.steps (pending / delay) done).done + 1 := by
  induction pending, delay using Nat.div.inductionOn generalizing r done with
  | ind pending delay hle ih =>
    rw [catchUpFuel_of_le hdelay patience hle.2, cyclesTried, if_neg (by omega),
      Nat.div_eq_sub_div hdelay hle.2]
    cases herror : r.step.2 with
    | none =>
      rw [Recorder.steps_of_ok herror, ← ih hdelay r.step.1 (done + 1), Nat.add_right_comm]
      rfl
    | some e => rw [Recorder.steps_of_error herror]
  | base pending delay hle =>
    have hlt : pending < delay := by omega
    rw [catchUpFuel_of_lt patience hlt, cyclesTried, if_pos hlt, Nat.div_eq_of_lt hlt]
    rfl

namespace Session

def clock (s : Session) : Clock := ⟨s.mode, s.pending⟩

theorem clock_receiveAll (s : Session) (events : List Event) :
    (s.receiveAll events).clock = s.clock.receiveAll events := by
  induction events generalizing s with
  | nil => rfl
  | cons e rest ih =>
    have hreceive : (s.receive e).clock = s.clock.receive e := by
      unfold receive Clock.receive
      rcases e.action? with _ | ⟨key, down⟩ | _ | _ <;> rfl
    show ((s.receive e).receiveAll rest).clock = (s.clock.receive e).receiveAll rest
    rw [ih, hreceive]

theorem receiveAll_eq (s : Session) (t : Turn) :
    s.receiveAll t.events =
      ⟨s.recorder.run t.keys, (s.clock.receiveAll t.events).mode,
        (s.clock.receiveAll t.events).pending⟩ := by
  rw [← clock_receiveAll]
  show _ = Session.mk _ (s.receiveAll t.events).mode (s.receiveAll t.events).pending
  rw [Turn.keys, ← recorder_receiveAll]

/-- A turn carries its task out. -/
theorem turn_eq_carryOut (hdelay : 0 < delay) (patience : Nat) (s : Session) (t : Turn) :
    s.turn delay patience t =
      match (s.clock.task delay t).carryOut s.recorder with
      | .shown r => .shown ⟨r, (s.clock.next delay t).mode, (s.clock.next delay t).pending⟩
      | .quit r => .quit r
      | .failed r e => .failed r e := by
  have hreceived := s.receiveAll_eq t
  unfold Clock.task Clock.next
  cases hmode : (s.clock.receiveAll t.events).mode with
  | running =>
    rw [hmode] at hreceived
    rw [turn_of_running patience (congrArg Session.mode hreceived), due, hreceived,
      settle_eq_steps hdelay patience _ _ 0]
    simp only [Task.carryOut, Clock.due]
    cases ((s.recorder.run t.keys).steps
      (((s.clock.receiveAll t.events).pending + t.micros) / delay)).error? <;> rfl
  | paused =>
    rw [turn_of_paused patience (hreceived ▸ hmode), hreceived]
    rfl
  | quit =>
    rw [turn_of_quit patience (hreceived ▸ hmode), hreceived]
    rfl

theorem cycles_eq_tried (hdelay : 0 < delay) (patience : Nat) (s : Session) (t : Turn) :
    s.cycles delay patience t = (s.clock.task delay t).tried s.recorder := by
  have hreceived := s.receiveAll_eq t
  unfold Clock.task
  cases hmode : (s.clock.receiveAll t.events).mode with
  | running =>
    rw [hmode] at hreceived
    rw [cycles_of_running patience (congrArg Session.mode hreceived), due, hreceived,
      ← Nat.zero_add (cyclesTried _ _ _ _), cyclesTried_eq_steps hdelay]
    rfl
  | paused =>
    rw [cycles, hreceived, hmode]
    rfl
  | quit =>
    rw [cycles, hreceived, hmode]
    rfl

/-- A session carries its tasks out. -/
theorem play_eq_perform (hdelay : 0 < delay) (patience : Nat) (s : Session)
    (turns : List Turn) (shown : Array Screen) :
    s.play delay patience turns shown
      = perform s.recorder shown (s.clock.plan delay turns) := by
  induction turns generalizing s shown with
  | nil => rfl
  | cons t rest ih =>
    rw [play, turn_eq_carryOut hdelay, Clock.plan, perform]
    cases (s.clock.task delay t).carryOut s.recorder with
    | shown r => exact ih _ _
    | quit r => rfl
    | failed r e => rfl

theorem cyclesOver_eq_stepsTried (hdelay : 0 < delay) (patience : Nat) (s : Session)
    (turns : List Turn) :
    s.cyclesOver delay patience turns = stepsTried s.recorder (s.clock.plan delay turns) := by
  induction turns generalizing s with
  | nil => rfl
  | cons t rest ih =>
    rw [cyclesOver, turn_eq_carryOut hdelay, cycles_eq_tried hdelay, Clock.plan, stepsTried]
    cases (s.clock.task delay t).carryOut s.recorder with
    | shown r => exact congrArg _ (ih _)
    | quit r => rfl
    | failed r e => rfl

end Session

end Host

end Chip8
