import Chip8.Host
import Chip8.Proofs.Pace
import Chip8.Proofs.Schedule

/-!
# Time in a pause

The time of a turn counts only if the machine is to run after the events of the turn. Two
scripts with the same events whose times differ in other turns alone cannot be told apart,
whatever the machine (`only_running_turns_count`).

So a pause that goes on takes no time from the machine, but the turn that ends it does:
its time has passed in the pause, is added after its events have been acted on, and is run
in full. `resuming_runs_paused_time` shows two scripts that differ in that time alone.
-/

namespace Chip8.Host

/-! ## Resuming -/

/-- Only pausing and resuming make a paused machine run. -/
theorem Mode.after_of_calm (mode : Mode) {events : List Event}
    (h : ∀ e ∈ events, e.action? ≠ some .togglePause) :
    mode.after events = mode ∨ mode.after events = .quit := by
  induction events generalizing mode with
  | nil => exact .inl rfl
  | cons e rest ih =>
    obtain ⟨hhead, hrest⟩ := List.forall_mem_cons.mp h
    rw [Mode.after_cons]
    rcases haction : e.action? with _ | ⟨key, down⟩ | _ | _
    · simp only [Clock.receive, haction]
      exact ih mode hrest
    · simp only [Clock.receive, haction]
      exact ih mode hrest
    · exact absurd haction hhead
    · simp only [Clock.receive, haction]
      rcases ih .quit hrest with hquit | hquit <;> exact .inr hquit

theorem Turn.toggles_of_resumes {mode : Mode} {t : Turn} (h : mode = .paused)
    (h' : mode.after t.events = .running) : t.toggles = true := by
  rw [← Bool.not_eq_false]
  intro hcalm
  have hnone : ∀ e ∈ t.events, e.action? ≠ some .togglePause := by
    simpa [Turn.toggles] using hcalm
  rcases Mode.after_of_calm mode hnone with hsame | hquit
  · rw [hsame, h] at h'
    cases h'
  · rw [hquit] at h'
    cases h'

/-! ## Scripts that differ in time -/

/-- Two scripts with the same events, and with the same times in the turns that count;
whether a turn counts can depend on the mode that it begins in. -/
def AgreeOn (counts : Mode → Turn → Prop) (mode : Mode) : List Turn → List Turn → Prop
  | [], [] => True
  | t :: rest, t' :: rest' =>
    t'.events = t.events ∧ (counts mode t → t'.elapsed = t.elapsed)
      ∧ AgreeOn counts (mode.after t.events) rest rest'
  | _, _ => False

/-- The machine is to run after the events of a turn. -/
def EndsRunning (mode : Mode) (t : Turn) : Prop := mode.after t.events = .running

namespace Clock

theorem task_congr (delay : Nat) (c : Clock) {t t' : Turn} (hevents : t'.events = t.events)
    (htime : EndsRunning c.mode t → t'.elapsed = t.elapsed) :
    c.task delay t' = c.task delay t ∧ c.next delay t' = c.next delay t := by
  unfold task next due Turn.keys Turn.micros
  rw [hevents]
  cases hmode : (c.receiveAll t.events).mode with
  | running =>
    rw [htime ((c.mode_receiveAll t.events).symm.trans hmode)]
    exact ⟨rfl, rfl⟩
  | paused => exact ⟨rfl, rfl⟩
  | quit => exact ⟨rfl, rfl⟩

/-- Times that do not count do not show in what is asked of the machine. -/
theorem plan_congr (delay : Nat) (c : Clock) {turns turns' : List Turn}
    (h : AgreeOn EndsRunning c.mode turns turns') :
    c.plan delay turns' = c.plan delay turns := by
  induction turns generalizing c turns' with
  | nil =>
    cases turns' with
    | nil => rfl
    | cons t' rest' => cases h
  | cons t rest ih =>
    cases turns' with
    | nil => cases h
    | cons t' rest' =>
      obtain ⟨hevents, htime, hrest⟩ := h
      obtain ⟨htask, hnext⟩ := c.task_congr delay hevents htime
      rw [← c.mode_next delay] at hrest
      rw [plan, plan, htask, hnext, ih _ hrest]

end Clock

namespace Session

variable {delay : Nat}

theorem play_congr (hdelay : 0 < delay) (patience : Nat) (s : Session)
    {turns turns' : List Turn} (h : AgreeOn EndsRunning s.mode turns turns') :
    s.play delay patience turns' = s.play delay patience turns := by
  have hplan : s.clock.plan delay turns' = s.clock.plan delay turns :=
    s.clock.plan_congr delay h
  rw [play_eq_perform hdelay, play_eq_perform hdelay, hplan]

theorem cyclesOver_congr_time (hdelay : 0 < delay) (patience : Nat) (s : Session)
    {turns turns' : List Turn} (h : AgreeOn EndsRunning s.mode turns turns') :
    s.cyclesOver delay patience turns' = s.cyclesOver delay patience turns := by
  have hplan : s.clock.plan delay turns' = s.clock.plan delay turns :=
    s.clock.plan_congr delay h
  rw [cyclesOver_eq_stepsTried hdelay, cyclesOver_eq_stepsTried hdelay, hplan]

end Session

/-- **Only the times of turns that end with a running machine count.** Let a speed be
between one and a million cycles in a second.

* Two scripts with the same events whose times differ in other turns alone lead to the
  same pictures, records and ending, and to the same number of steps in every turn. No
  turn that begins and ends in a pause, or quits, has a time that matters.
* In a turn that begins in a pause and is resumed by its events, the time since the turn
  before counts in full, although it has passed in the pause: if no step fails, there is a
  step for every whole delay in it, and the rest of it stays pending. -/
theorem only_running_turns_count (s : Settings) (hslow : 1 ≤ s.speed.toNat)
    (hfast : s.speed.toNat ≤ 1000000) (desktop : Desktop) (patience : Nat) :
    (∀ (r : Recorder) (turns turns' : List Turn), AgreeOn EndsRunning .running turns turns' →
        run s desktop patience r turns' = run s desktop patience r turns
          ∧ Session.cyclesOver s.cycleDelay patience { recorder := r } turns'
            = Session.cyclesOver s.cycleDelay patience { recorder := r } turns)
      ∧ ∀ (session : Session) (t : Turn), session.mode = .paused → EndsRunning session.mode t →
        (∀ r e, session.turn s.cycleDelay patience t ≠ .failed r e) →
        session.cycles s.cycleDelay patience t = t.micros / (1000000 / s.speed.toNat)
          ∧ ∃ r, session.turn s.cycleDelay patience t
            = .shown ⟨r, .running, t.micros % (1000000 / s.speed.toNat)⟩ := by
  have hdelay : 0 < s.cycleDelay := (cycleDelay_pos_iff s).mpr hfast
  refine ⟨?_, ?_⟩
  · intro r turns turns' hagree
    refine ⟨?_, Session.cyclesOver_congr_time hdelay patience { recorder := r } hagree⟩
    unfold run
    cases openWindow s desktop with
    | error failure => rfl
    | ok window =>
      have hplay := Session.play_congr hdelay patience
        { recorder := { r with log := r.filter.note r.log (.running s.speed s.scale) } } hagree
      simp only [hplay]
  · intro session t hpaused hresumed hfails
    have hmode : (session.receiveAll t.events).mode = .running := by
      rw [session.receiveAll_eq]
      exact (session.clock.mode_receiveAll t.events).trans hresumed
    have hdue : session.due t = t.micros := by
      rw [Session.due, Session.pending_receiveAll, Turn.toggles_of_resumes hpaused hresumed]
      exact Nat.zero_add _
    rw [← cycleDelay_eq hslow, ← hdue]
    exact Session.turn_eq_shown hdelay patience hmode hfails

/-- At 700 cycles in a second, five seconds in a pause are as good as none, but of the two
milliseconds before a session is resumed a cycle is run. -/
theorem only_running_turns_count_when_resumed :
    let s : Settings := { speed := 700 }
    let space : Event := .keyDown (some .space) false
    let paused (ns : Nat) : List Turn := [⟨0, [space]⟩, ⟨ns, []⟩]
    let session : Session := ⟨{ machine := spinning }, .paused, 99⟩
    let resumed : Turn := ⟨2000999, [space]⟩
    AgreeOn EndsRunning .running (paused 0) (paused 5000000000)
      ∧ run s {} 0 { machine := spinning } (paused 5000000000)
        = run s {} 0 { machine := spinning } (paused 0)
      ∧ EndsRunning session.mode resumed ∧ session.cycles s.cycleDelay 0 resumed = 1 := by
  intro s space paused session resumed
  have hagree : AgreeOn EndsRunning .running (paused 0) (paused 5000000000) := by
    simp [paused, AgreeOn, EndsRunning, space, Mode.after, Clock.receiveAll, Clock.receive,
      Event.action?, Clock.act, Mode.toggle]
  have hruns : EndsRunning session.mode resumed := rfl
  have hdelay : 0 < s.cycleDelay := by decide
  obtain ⟨sameRun, hcycles⟩ := only_running_turns_count s (by decide) (by decide) {} 0
  have hfails : ∀ r e, session.turn s.cycleDelay 0 resumed ≠ .failed r e := by
    intro r e hfailed
    have hmode : (session.receiveAll resumed.events).mode = .running := rfl
    obtain ⟨s', hshown, -⟩ := Session.turn_of_spins hdelay 0 hmode spins_spinning
    rw [hfailed] at hshown
    cases hshown
  have hquotient : resumed.micros / (1000000 / s.speed.toNat) = 1 := by decide
  obtain ⟨hcount, -⟩ := hcycles session resumed rfl hruns hfails
  exact ⟨hagree, (sameRun _ _ _ hagree).1, hruns, hcount.trans hquotient⟩

/-- A program that draws the digit 0 with its first two steps and then spins. -/
def drawing : Machine :=
  (Machine.fresh (.cycle #[])).run [.load [0xA0, 0x50, 0xD0, 0x05, 0x12, 0x04]]

/-- **Time that has passed in a pause is run by the turn that ends the pause.** The two
scripts have the same events and differ only in the time of their second turn, which
begins in a pause. In one of them no time passes and nothing is drawn, in the other twenty
milliseconds pass and two cycles draw a digit. -/
theorem resuming_runs_paused_time :
    let s : Settings := { speed := 100 }
    let space : Event := .keyDown (some .space) false
    let script (ns : Nat) : List Turn := [⟨0, [space]⟩, ⟨ns, [space]⟩]
    let r : Recorder := { machine := drawing }
    AgreeOn (fun mode _ => mode ≠ .paused) .running (script 0) (script 20000000)
      ∧ Session.cyclesOver s.cycleDelay 0 { recorder := r } (script 0) = [0, 0]
      ∧ Session.cyclesOver s.cycleDelay 0 { recorder := r } (script 20000000) = [0, 2]
      ∧ (run s {} 0 r (script 0)).frames.map (·.screen.litCount) = #[0, 0]
      ∧ (run s {} 0 r (script 20000000)).frames.map (·.screen.litCount) = #[0, 14] := by
  intro s space script r
  refine ⟨?_, ?_, ?_, ?_, ?_⟩
  · simp [script, AgreeOn, space, Mode.after, Clock.receiveAll, Clock.receive, Event.action?,
      Clock.act, Mode.toggle]
  · decide +kernel
  · decide +kernel
  · decide +kernel
  · decide +kernel

end Chip8.Host
