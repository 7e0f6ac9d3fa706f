import Chip8.Host.Frame.Fidelity
import Chip8.Proofs.PausedTime

/-!
# How a session goes

A session ends with the first turn in which the user quits, at whatever place among the
events of the turn, or with the first step that fails before. Every turn until then shows
one picture, of the screen after all of its steps (`session_outcome`). It is put together
from the tasks of the script: either all of them up to there are carried out
(`perform_of_quit`), or one of them fails (`perform_of_failsAt`).
-/

namespace Chip8

namespace Host

/-! ## Quitting -/

/-- Whether an event ends the program. Escape does it also by being held down. -/
def Event.quits : Event → Bool
  | .quit => true
  | .keyDown (some .escape) _ => true
  | _ => false

def Turn.quits (t : Turn) : Bool := t.events.any Event.quits

theorem Event.action?_eq_quit_iff (e : Event) : e.action? = some .quit ↔ e.quits = true := by
  cases e with
  | keyDown key? repeated =>
    rcases key? with _ | (c | _ | _ | _) <;> cases repeated <;> simp [action?, quits]
  | keyUp key? => cases key? <;> simp [action?, quits]
  | quit => simp [action?, quits]
  | other => simp [action?, quits]

/-- Who has quit stays so, whatever comes after it. -/
theorem Mode.after_eq_quit_iff (mode : Mode) (events : List Event) :
    mode.after events = .quit ↔ mode = .quit ∨ events.any Event.quits = true := by
  induction events generalizing mode with
  | nil => simp [Mode.after, Clock.receiveAll]
  | cons e rest ih =>
    have hreceive : (Clock.receive ⟨mode, 0⟩ e).mode = .quit
        ↔ mode = .quit ∨ e.quits = true := by
      rw [← Event.action?_eq_quit_iff]
      unfold Clock.receive
      rcases e.action? with _ | ⟨key, down⟩ | _ | _ <;> cases mode <;>
        simp [Clock.act, Mode.toggle]
    rw [Mode.after_cons, ih, hreceive, List.any_cons, Bool.or_eq_true, or_assoc]

/-! ## Keys -/

theorem Event.input?_cases (e : Event) :
    e.input? = none ∨ ∃ key down, e.input? = some (.setKey key down) := by
  unfold input?
  rcases e.action? with _ | ⟨key, down⟩ | _ | _
  · exact .inl rfl
  · exact .inr ⟨_, _, rfl⟩
  · exact .inl rfl
  · exact .inl rfl

/-- Keys never fail and move nothing but the keypad. -/
theorem Turn.run_keys (t : Turn) (m : Machine) :
    m.Succeeds t.keys ∧ m.run t.keys = { m with keypad := (m.run t.keys).keypad } := by
  unfold Turn.keys
  induction t.events generalizing m with
  | nil => exact ⟨m.succeeds_nil, rfl⟩
  | cons e rest ih =>
    rw [List.filterMap_cons]
    rcases e.input?_cases with hnone | ⟨key, down, hkey⟩
    · rw [hnone]
      exact ih m
    · rw [hkey]
      obtain ⟨hsucceeds, hrun⟩ := ih (m.setKey key down)
      exact ⟨Machine.succeeds_cons.mpr ⟨rfl, hsucceeds⟩, hrun⟩

/-! ## Tasks in a row -/

/-- Whether a task lets the session go on. -/
def Task.goesOn : Task → Bool
  | .quit _ => false
  | _ => true

/-- What the first `n` tasks hand to the machine. -/
def handed (tasks : List Task) (n : Nat) : List Input := (tasks.take n).flatMap Task.inputs

/-- What is handed to the machine up to the first `k` steps of task number `n`. -/
def handedUpTo (tasks : List Task) (n k : Nat) : List Input :=
  handed tasks n ++ (tasks[n]?.elim [] Task.keys ++ Input.steps k)

/-- The screens that a machine shows after each of the first `n` tasks. -/
def pictures (m : Machine) (tasks : List Task) (n : Nat) : List Screen :=
  (List.range n).map fun i => (m.run (handed tasks (i + 1))).screen

/-- The first step to fail is one of task number `n`, after `k` steps of the same task. -/
def FailsAt (m : Machine) (tasks : List Task) (n k : Nat) (e : Error) : Prop :=
  (∃ task, tasks[n]? = some task ∧ k < task.cycles)
    ∧ m.Succeeds (handedUpTo tasks n k) ∧ (m.run (handedUpTo tasks n k)).step.2 = some e

theorem handed_succ {tasks : List Task} {n : Nat} {task : Task} (h : tasks[n]? = some task) :
    handed tasks (n + 1) = handed tasks n ++ task.inputs := by
  rw [handed, List.take_add_one, h, List.flatMap_append]
  simp [handed]

theorem handed_cons_succ (task : Task) (rest : List Task) (n : Nat) :
    handed (task :: rest) (n + 1) = task.inputs ++ handed rest n := rfl

theorem pictures_cons_succ (m : Machine) (task : Task) (rest : List Task) (n : Nat) :
    pictures m (task :: rest) (n + 1)
      = (m.run task.inputs).screen :: pictures (m.run task.inputs) rest n := by
  simp only [pictures, List.range_succ_eq_map, List.map_cons, List.map_map]
  congr 1
  · rw [handed_cons_succ, handed]
    simp
  · apply List.map_congr_left
    intro i _
    simp only [Function.comp_apply, Nat.succ_eq_add_one, handed_cons_succ, Machine.run_append]

theorem carryOut_of_succeeds {r : Recorder} {task : Task} (hgoes : task.goesOn = true)
    (h : r.machine.Succeeds task.inputs) : task.carryOut r = .shown (r.run task.inputs) := by
  cases task with
  | run keys cycles =>
    have hsteps : (r.run keys).machine.Succeeds (Input.steps cycles) := by
      rw [r.machine_run]
      exact (Machine.succeeds_append.mp h).2
    simp only [Task.carryOut, Recorder.steps_of_succeeds hsteps]
    rw [← Recorder.run_append]
    rfl
  | rest keys =>
    show TaskEnd.shown (r.run keys) = .shown (r.run (keys ++ []))
    rw [List.append_nil]
  | quit keys => cases hgoes

/-- After a step that fails nothing more is done. -/
theorem carryOut_of_fails {r : Recorder} {task : Task} {k : Nat} {e : Error}
    (hk : k < task.cycles) (hbefore : r.machine.Succeeds (task.keys ++ Input.steps k))
    (hfails : (r.machine.run (task.keys ++ Input.steps k)).step.2 = some e) :
    task.carryOut r = .failed (r.run (task.keys ++ Input.steps (k + 1))) e := by
  cases task with
  | run keys cycles =>
    have hsteps : (r.run keys).machine.Succeeds (Input.steps k) := by
      rw [r.machine_run]
      exact (Machine.succeeds_append.mp hbefore).2
    have hlast : ((r.run keys).machine.run (Input.steps k)).step.2 = some e := by
      rw [r.machine_run, ← Machine.run_append]
      exact hfails
    have hk' : k < cycles := hk
    simp only [Task.carryOut, Recorder.steps_of_fails hk' hsteps hlast]
    rw [← Recorder.run_append]
    rfl
  | rest keys => cases hk
  | quit keys => cases hk

/-- As long as no step fails, every task adds its picture. -/
theorem perform_of_succeeds {r : Recorder} {tasks : List Task} {n : Nat}
    (hn : n ≤ tasks.length) (hgoes : ∀ task ∈ tasks.take n, task.goesOn = true)
    (h : r.machine.Succeeds (handed tasks n)) (shown : Array Screen) :
    perform r shown tasks =
      perform (r.run (handed tasks n)) (shown ++ (pictures r.machine tasks n).toArray)
        (tasks.drop n) := by
  induction n generalizing r tasks shown with
  | zero => simp [pictures, handed, Recorder.run]
  | succ n ih =>
    cases tasks with
    | nil => cases hn
    | cons task rest =>
      obtain ⟨htask, hrest⟩ := List.forall_mem_cons.mp hgoes
      obtain ⟨hinputs, hafter⟩ := Machine.succeeds_append.mp h
      rw [← r.machine_run] at hafter
      rw [perform, carryOut_of_succeeds htask hinputs]
      -- the rest is played by the machine that the first task leaves
      show perform (r.run task.inputs) _ rest = _
      rw [ih (Nat.le_of_succ_le_succ hn) hrest hafter, pictures_cons_succ, handed_cons_succ,
        Recorder.run_append, r.machine_run]
      simp

theorem perform_of_quit {r : Recorder} {tasks : List Task} {n : Nat} {keys : List Input}
    (hlast : tasks[n]? = some (.quit keys))
    (hgoes : ∀ task ∈ tasks.take n, task.goesOn = true)
    (h : r.machine.Succeeds (handed tasks n)) :
    perform r #[] tasks =
      ⟨(pictures r.machine tasks n).toArray, r.run (handed tasks n ++ keys), .quit⟩ := by
  obtain ⟨hn, hget⟩ := List.getElem?_eq_some_iff.mp hlast
  rw [perform_of_succeeds (Nat.le_of_lt hn) hgoes h, List.drop_eq_getElem_cons hn, hget,
    Recorder.run_append]
  simp [perform, Task.carryOut]

theorem handedUpTo_eq {tasks : List Task} {n : Nat} {task : Task} (h : tasks[n]? = some task)
    (k : Nat) : handedUpTo tasks n k = handed tasks n ++ (task.keys ++ Input.steps k) := by
  rw [handedUpTo, h]
  rfl

theorem perform_of_failsAt {r : Recorder} {tasks : List Task} {n k : Nat} {e : Error}
    (hgoes : ∀ task ∈ tasks.take n, task.goesOn = true) (h : FailsAt r.machine tasks n k e) :
    perform r #[] tasks =
      ⟨(pictures r.machine tasks n).toArray, r.run (handedUpTo tasks n (k + 1)),
        .failed e⟩ := by
  obtain ⟨⟨task, htask, hk⟩, hbefore, hfails⟩ := h
  obtain ⟨hn, hget⟩ := List.getElem?_eq_some_iff.mp htask
  rw [handedUpTo_eq htask] at hbefore hfails ⊢
  obtain ⟨hearlier, hsame⟩ := Machine.succeeds_append.mp hbefore
  rw [Machine.run_append] at hfails
  rw [← r.machine_run] at hsame hfails
  rw [perform_of_succeeds (Nat.le_of_lt hn) hgoes hearlier, List.drop_eq_getElem_cons hn,
    hget, Recorder.run_append, perform, carryOut_of_fails hk hsame hfails]
  simp

/-- If the keys of the tasks do not fail, either nothing does or a step is the first to. -/
theorem succeeds_or_failsAt (m : Machine) {tasks : List Task} {n : Nat}
    (hn : n ≤ tasks.length) (hkeys : ∀ task ∈ tasks, ∀ m : Machine, m.Succeeds task.keys) :
    m.Succeeds (handed tasks n) ∨ ∃ i k e, i < n ∧ FailsAt m tasks i k e := by
  induction n with
  | zero => exact .inl m.succeeds_nil
  | succ n ih =>
    rcases ih (Nat.le_of_lt hn) with hbefore | ⟨i, k, e, hi, hfails⟩
    · obtain ⟨task, htask⟩ : ∃ task, tasks[n]? = some task := ⟨_, List.getElem?_eq_getElem hn⟩
      have hmem := hkeys task (List.mem_of_getElem? htask)
      rw [handed_succ htask, Task.inputs]
      rcases Machine.steps_succeed_or_fail ((m.run (handed tasks n)).run task.keys)
        task.cycles with
        hsteps | ⟨k, e, hk, hsteps, hfails⟩
      · exact .inl (Machine.succeeds_append.mpr
          ⟨hbefore, Machine.succeeds_append.mpr ⟨hmem _, hsteps⟩⟩)
      · refine .inr ⟨n, k, e, Nat.lt_succ_self n, ⟨task, htask, hk⟩, ?_, ?_⟩
        · rw [handedUpTo_eq htask]
          exact Machine.succeeds_append.mpr
            ⟨hbefore, Machine.succeeds_append.mpr ⟨hmem _, hsteps⟩⟩
        · rw [handedUpTo_eq htask, Machine.run_append, Machine.run_append]
          exact hfails
    · exact .inr ⟨i, k, e, Nat.lt_succ_of_lt hi, hfails⟩

/-! ## The tasks of a script -/

namespace Clock

/-- The clock after some turns in which no step has failed. -/
def afterTurns (delay : Nat) (c : Clock) (turns : List Turn) : Clock :=
  turns.foldl (next delay) c

variable {delay : Nat}

theorem mode_afterTurns (c : Clock) (turns : List Turn) :
    (c.afterTurns delay turns).mode = c.mode.after (turns.flatMap Turn.events) := by
  induction turns generalizing c with
  | nil => rfl
  | cons t rest ih =>
    rw [List.flatMap_cons, Mode.after_append, ← mode_next delay]
    exact ih (c.next delay t)

theorem getElem?_plan (c : Clock) (turns : List Turn) (n : Nat) :
    (c.plan delay turns)[n]?
      = turns[n]?.map fun t => (c.afterTurns delay (turns.take n)).task delay t := by
  induction turns generalizing c n with
  | nil => rfl
  | cons t rest ih =>
    cases n with
    | zero => rfl
    | succ n => exact ih (c.next delay t) n

theorem keys_task (c : Clock) (t : Turn) : (c.task delay t).keys = t.keys := by
  unfold task
  split <;> rfl

theorem task_of_quit {c : Clock} {t : Turn} (h : c.mode.after t.events = .quit) :
    c.task delay t = .quit t.keys := by
  rw [task, mode_receiveAll, h]

theorem goesOn_task {c : Clock} {t : Turn} (h : c.mode.after t.events ≠ .quit) :
    (c.task delay t).goesOn = true := by
  rw [← mode_receiveAll] at h
  unfold task
  split
  · rfl
  · rfl
  · contradiction

theorem cycles_task_of_paused (delay : Nat) {c : Clock} {t : Turn}
    (h : c.mode.after t.events = .paused) :
    (c.task delay t).cycles = 0 := by
  rw [task, mode_receiveAll, h]
  rfl

/-! ### Until the user quits -/

theorem mode_after_turn (delay : Nat) {turns : List Turn} {n : Nat} {t : Turn}
    (h : turns[n]? = some t) :
    (afterTurns delay {} (turns.take n)).mode.after t.events
      = Mode.running.after ((turns.take (n + 1)).flatMap Turn.events) := by
  rw [mode_afterTurns, ← Mode.after_append, List.take_add_one, h, List.flatMap_append]
  simp

/-- A turn before the first one in which the user quits does not end the session. -/
theorem after_ne_quit {turns : List Turn} {q n : Nat} (hn : n < q)
    (hfirst : ∀ t ∈ turns.take q, t.quits = false) :
    Mode.running.after ((turns.take (n + 1)).flatMap Turn.events) ≠ .quit := by
  rw [ne_eq, Mode.after_eq_quit_iff, List.any_flatMap, List.any_eq_true]
  rintro (hquit | ⟨t, hmem, hquits⟩)
  · cases hquit
  · have hearlier := hfirst t (List.take_subset_take_left turns hn hmem)
    rw [Turn.quits, hquits] at hearlier
    cases hearlier

theorem task_of_getElem?_plan {turns : List Turn} {n : Nat} {task : Task}
    (h : (plan delay {} turns)[n]? = some task) :
    ∃ t, turns[n]? = some t ∧ (afterTurns delay {} (turns.take n)).task delay t = task := by
  rw [getElem?_plan] at h
  exact Option.map_eq_some_iff.mp h

theorem getElem?_plan_of_quits {turns : List Turn} {q : Nat} {last : Turn}
    (hq : turns[q]? = some last) (hquits : last.quits = true) :
    (plan delay {} turns)[q]? = some (.quit last.keys) := by
  rw [getElem?_plan, hq, Option.map_some]
  exact congrArg some (task_of_quit ((Mode.after_eq_quit_iff _ _).mpr (.inr hquits)))

/-- Before the first turn in which the user quits the session goes on. -/
theorem goesOn_of_mem_take_plan {turns : List Turn} {q : Nat}
    (hfirst : ∀ t ∈ turns.take q, t.quits = false) :
    ∀ task ∈ (plan delay {} turns).take q, task.goesOn = true := by
  intro task htask
  obtain ⟨n, hn⟩ := List.mem_iff_getElem?.mp htask
  rw [List.getElem?_take] at hn
  split at hn
  · rename_i hlt
    obtain ⟨t, ht, rfl⟩ := task_of_getElem?_plan hn
    apply goesOn_task
    rw [mode_after_turn _ ht]
    exact after_ne_quit hlt hfirst
  · cases hn

theorem succeeds_keys_of_mem_plan (turns : List Turn) :
    ∀ task ∈ plan delay {} turns, ∀ m : Machine, m.Succeeds task.keys := by
  intro task htask m
  obtain ⟨n, hn⟩ := List.mem_iff_getElem?.mp htask
  obtain ⟨t, -, rfl⟩ := task_of_getElem?_plan hn
  rw [keys_task]
  exact (t.run_keys m).1

end Clock

/-! ## The outcome -/

theorem window_of_openWindow {s : Settings} {desktop : Desktop} {window : Window}
    (h : openWindow s desktop = .ok window) : s.window = .ok window := by
  unfold openWindow at h
  cases hheld : desktop.held with
  | true =>
    rw [hheld] at h
    cases h
  | false =>
    rw [hheld] at h
    cases hdriver : desktop.missingDriver? with
    | some name =>
      rw [hdriver] at h
      cases h
    | none =>
      rw [hdriver] at h
      cases hwindow : s.window with
      | ok window' =>
        rw [hwindow] at h
        cases h
        rfl
      | error e =>
        rw [hwindow] at h
        cases h

/-- The task of a turn: its keys come before its steps, and if it ends in a pause, there
are none. -/
theorem exists_task (delay : Nat) (m : Machine) {turns : List Turn} {n : Nat} {t : Turn}
    (ht : turns[n]? = some t) :
    let tasks := Clock.plan delay {} turns
    ∃ task, tasks[n]? = some task
      ∧ handed tasks (n + 1) = handed tasks n ++ (t.keys ++ Input.steps task.cycles)
      ∧ (Mode.running.after ((turns.take (n + 1)).flatMap Turn.events) = .paused →
        task.cycles = 0 ∧ m.run (handed tasks (n + 1))
          = { m.run (handed tasks n) with
              keypad := (m.run (handed tasks (n + 1))).keypad }) := by
  intro tasks
  have htask : tasks[n]?
      = some ((Clock.afterTurns delay {} (turns.take n)).task delay t) := by
    rw [Clock.getElem?_plan, ht]
    rfl
  have hhanded := handed_succ htask
  rw [Task.inputs, Clock.keys_task] at hhanded
  refine ⟨_, htask, hhanded, ?_⟩
  intro hpaused
  rw [← Clock.mode_after_turn delay ht] at hpaused
  have hcycles := Clock.cycles_task_of_paused delay hpaused
  have hkeys : handed tasks (n + 1) = handed tasks n ++ t.keys := by
    rw [hhanded, hcycles]
    exact congrArg _ (List.append_nil t.keys)
  refine ⟨hcycles, ?_⟩
  rw [hkeys, Machine.run_append]
  exact (t.run_keys _).2

/-- **A session ends with the first turn in which the user quits, or with a step that
fails before.** Let a speed be at most a million cycles in a second, and let the window
open. Of the turns, number `q` is the first among whose events one quits, at whatever
place.

* If no step fails before turn `q`, there is a frame for each of the turns before, and of
  turn `q` only the keys reach the machine.
* If the first step that fails is one of turn `n` before, there is a frame for each of the
  turns before `n`, the failing step is the last thing done, and the error says what it
  was.
* There is no third way.
* The frame of a turn shows the screen after all of the turn's inputs: its keys, and then
  its steps. A turn with a pause after its events has no steps, and then nothing but the
  keypad has changed.
* If the blocks have sides of at most 256 points, who reads a frame sees the screen. If
  they are larger, the window is not the one that was asked for, and the first pixel hides
  all others: where it is on, a frame is white all over. -/
theorem session_outcome (s : Settings) (hfast : s.speed.toNat ≤ 1000000) (desktop : Desktop)
    {window : Window} (hwindow : openWindow s desktop = .ok window) (patience : Nat)
    (r : Recorder) {turns : List Turn} {q : Nat} {last : Turn} (hq : turns[q]? = some last)
    (hquits : last.quits = true) (hfirst : ∀ t ∈ turns.take q, t.quits = false) :
    let started : Recorder := { r with log := r.filter.note r.log (.running s.speed s.scale) }
    let tasks := Clock.plan s.cycleDelay {} turns
    let frames (n : Nat) : Array Frame :=
      ((pictures r.machine tasks n).map fun screen => ⟨s, window, screen⟩).toArray
    let played := Session.play s.cycleDelay patience { recorder := started } turns
    let result := run s desktop patience r turns
    (r.machine.Succeeds (handed tasks q) →
        played.recorder = started.run (handed tasks q ++ last.keys)
          ∧ result = ⟨frames q, played.recorder.log, .quit⟩)
      ∧ (∀ n k e, n < q → FailsAt r.machine tasks n k e →
          played.recorder = started.run (handedUpTo tasks n (k + 1))
            ∧ result = ⟨frames n, played.recorder.log, .failed (.stopped e)⟩
            ∧ (Failure.stopped e).headline = "emulation stopped"
            ∧ (Failure.stopped e).cause = e.message)
      ∧ (r.machine.Succeeds (handed tasks q)
          ∨ ∃ n k e, n < q ∧ FailsAt r.machine tasks n k e)
      ∧ (∀ n t, turns[n]? = some t → ∃ task, tasks[n]? = some task
          ∧ handed tasks (n + 1) = handed tasks n ++ (t.keys ++ Input.steps task.cycles)
          ∧ (Mode.running.after ((turns.take (n + 1)).flatMap Turn.events) = .paused →
            task.cycles = 0 ∧ r.machine.run (handed tasks (n + 1))
              = { r.machine.run (handed tasks n) with
                  keypad := (r.machine.run (handed tasks (n + 1))).keypad }))
      ∧ (s.zoom.toNat ≤ 256 → ∀ frame ∈ result.frames, frame.reading = frame.screen)
      ∧ (256 < s.zoom.toNat → ∀ frame ∈ result.frames, frame.screen.pixel 0 0 = true →
          ∀ x y, x < 64 → y < 32 → frame.reading.pixel x y = true) := by
  intro started tasks frames played result
  have hdelay : 0 < s.cycleDelay := (cycleDelay_pos_iff s).mpr hfast
  have hplayed : played = perform started #[] tasks :=
    Session.play_eq_perform hdelay patience { recorder := started } turns #[]
  have hresult : result = ⟨played.screens.map fun screen => ⟨s, window, screen⟩,
      played.recorder.log, played.ending.map .stopped⟩ := by
    show run s desktop patience r turns = _
    unfold run
    rw [hwindow]
  have hgoes : ∀ task ∈ tasks.take q, task.goesOn = true :=
    Clock.goesOn_of_mem_take_plan hfirst
  have hlast : tasks[q]? = some (.quit last.keys) := Clock.getElem?_plan_of_quits hq hquits
  have hlength : q < tasks.length := (List.getElem?_eq_some_iff.mp hlast).1
  have hframes : ∀ frame ∈ result.frames, ∃ screen, frame = ⟨s, window, screen⟩ := by
    intro frame hframe
    rw [hresult] at hframe
    obtain ⟨screen, -, rfl⟩ := Array.mem_map.mp hframe
    exact ⟨screen, rfl⟩
  refine ⟨?_, ?_, ?_, ?_, ?_, ?_⟩
  · intro hsucceeds
    rw [hresult, hplayed, perform_of_quit (r := started) hlast hgoes hsucceeds]
    refine ⟨rfl, ?_⟩
    simp [frames, Ending.map, started]
  · intro n k e hn hfails
    have hbefore : ∀ task ∈ tasks.take n, task.goesOn = true := fun task htask =>
      hgoes task (List.take_subset_take_left tasks (Nat.le_of_lt hn) htask)
    rw [hresult, hplayed, perform_of_failsAt (r := started) hbefore hfails]
    refine ⟨rfl, ?_, rfl, rfl⟩
    simp [frames, Ending.map, started]
  · exact succeeds_or_failsAt r.machine (Nat.le_of_lt hlength)
      (Clock.succeeds_keys_of_mem_plan turns)
  · exact fun n t ht => exists_task s.cycleDelay r.machine ht
  · intro hscale frame hframe
    obtain ⟨screen, rfl⟩ := hframes frame hframe
    exact Frame.reading_eq_screen hscale (window_of_openWindow hwindow)
  · intro hscale frame hframe hcorner x y hx hy
    obtain ⟨screen, rfl⟩ := hframes frame hframe
    have hopened : s.window = .ok window := window_of_openWindow hwindow
    exact Frame.reading_of_gt (f := ⟨s, window, screen⟩) hscale hopened hcorner hx hy

/-- Escape held down among other keys ends a session after one frame, whose digit is
drawn, and what would be due in five seconds is not run. A return from no call ends it
before there is a frame. -/
theorem session_outcome_of_two_turns :
    let space : Event := .keyDown (some .space) false
    let turns : List Turn :=
      [⟨20000000, []⟩, ⟨5000000000, [space, .keyDown (some .escape) true, space]⟩]
    let returning : Machine := (Machine.fresh (.cycle #[])).run [.load [0x00, 0xEE]]
    (run {} {} 0 { machine := drawing } turns).frames.map (·.screen.litCount) = #[14]
      ∧ (run {} {} 0 { machine := drawing } turns).ending = .quit
      ∧ (run {} {} 0 { machine := returning } turns).frames.size = 0
      ∧ (run {} {} 0 { machine := returning } turns).ending
        = .failed (.stopped (.stackUnderflow 0x200)) := by
  intro space turns returning
  have hwindow : openWindow {} {} = .ok ⟨640, 320⟩ := rfl
  have hq : turns[1]? = some ⟨5000000000, [space, .keyDown (some .escape) true, space]⟩ := rfl
  have hfirst : ∀ t ∈ turns.take 1, t.quits = false := by decide
  let tasks := Clock.plan (Settings.cycleDelay {}) {} turns
  have hdraws : drawing.Succeeds (handed tasks 1) := by
    unfold Machine.Succeeds
    decide +kernel
  have hlit : (drawing.run (handed tasks 1)).screen.litCount = 14 := by decide +kernel
  have hfails : FailsAt returning tasks 0 0 (.stackUnderflow 0x200) :=
    ⟨⟨.run [] 2, rfl, Nat.zero_lt_two⟩, returning.succeeds_nil, by decide +kernel⟩
  obtain ⟨hquit, -⟩ :=
    session_outcome {} (by decide) {} hwindow 0 { machine := drawing } hq rfl hfirst
  obtain ⟨-, hfailed, -⟩ :=
    session_outcome {} (by decide) {} hwindow 0 { machine := returning } hq rfl hfirst
  have hrun := (hquit hdraws).2
  have hrun' := (hfailed 0 0 _ Nat.one_pos hfails).2.1
  rw [hrun, hrun']
  refine ⟨?_, rfl, rfl, rfl⟩
  have hone : pictures drawing tasks 1 = [(drawing.run (handed tasks 1)).screen] := rfl
  show ((pictures drawing tasks 1).map fun screen =>
      Frame.mk {} ⟨640, 320⟩ screen).toArray.map _ = #[14]
  rw [hone, List.map_toArray, List.map_singleton, List.map_singleton, hlit]

/-- A machine with a program that turns one pixel on, in the middle of the upper edge. -/
def drawingPixel : Machine :=
  (Machine.fresh (.cycle #[])).run
    [.load [0xA2, 0x0A, 0x60, 0x20, 0x61, 0x00, 0xD0, 0x11, 0x12, 0x08, 0x80]]

/-- **A frame that does not show the screen.** The speed is ordinary, a window of 64 by 32
opens, no step fails, and the session is quit in its second turn. But the block of the one
pixel that is on takes the right half of the window, so the last point of the frame is
white although the last pixel is off. -/
theorem wrapped_blocks_hide_screen :
    let s : Settings := { speed := 1000, scale := 134217729 }
    let turns : List Turn := [⟨5000000, []⟩, ⟨0, [.quit]⟩]
    let result := run s {} 0 { machine := drawingPixel } turns
    openWindow s {} = .ok ⟨64, 32⟩
      ∧ drawingPixel.Succeeds (handed (Clock.plan s.cycleDelay {} turns) 1)
      ∧ result.ending = .quit ∧ result.frames.size = 1
      ∧ ∀ frame ∈ result.frames,
        frame.reading.pixel 63 31 = true ∧ frame.screen.pixel 63 31 = false := by
  intro s turns result
  have hshown : result.ending = .quit ∧ result.frames.size = 1
      ∧ ∀ frame ∈ result.frames,
        frame.isWhite (63 * frame.squareWidth) (31 * frame.squareHeight) = true
          ∧ frame.screen.pixel 63 31 = false := by
    decide +kernel
  obtain ⟨hending, hsize, hlast⟩ := hshown
  refine ⟨by decide +kernel, ?_, hending, hsize, ?_⟩
  · unfold Machine.Succeeds
    decide +kernel
  · intro frame hframe
    obtain ⟨hwhite, hoff⟩ := hlast frame hframe
    rw [frame.pixel_reading (by decide) (by decide)]
    exact ⟨hwhite, hoff⟩

end Host

end Chip8
