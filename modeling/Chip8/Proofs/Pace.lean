import Chip8.Proofs.Session

/-!
# The pace of a session

Up to a million cycles in a second the host loses no time and counts none twice. Time that
does not fill a cycle is carried from turn to turn until pausing or resuming drops it, so
over a stretch of turns without that, the steps are the whole delays in the sum of the
times (`no_cycle_lost`). The sum is what counts: neither its cut into turns
(`after?_of_quiet`) nor the machine (`cyclesOver_congr`) has a say. The delay is rounded
down, so the steps are rather too many than too few (`rate_le`).
-/

namespace Chip8.Host

/-! ## Rates -/

theorem cycleDelay_eq {s : Settings} (hslow : 1 ≤ s.speed.toNat) :
    s.cycleDelay = 1000000 / s.speed.toNat := by
  rw [Settings.cycleDelay, Nat.max_eq_left hslow]

/-- A delay that is rounded down runs no fewer cycles than the speed asks for. -/
theorem rate_le {speed : Nat} (hslow : 1 ≤ speed) (hfast : speed ≤ 1000000) (total : Nat) :
    total * speed / 1000000 ≤ total / (1000000 / speed) := by
  have hdelay : 0 < 1000000 / speed := Nat.div_pos hfast hslow
  calc total * speed / 1000000
      ≤ total * speed / (1000000 / speed * speed) :=
        Nat.div_le_div_left (Nat.div_mul_le_self _ _) (Nat.mul_pos hdelay hslow)
    _ = total / (1000000 / speed) := Nat.mul_div_mul_right _ _ hslow

theorem rate_eq_of_dvd {speed : Nat} (hslow : 1 ≤ speed) (h : speed ∣ 1000000) (total : Nat) :
    total / (1000000 / speed) = total * speed / 1000000 := by
  have hround : 1000000 / speed * speed = 1000000 := Nat.div_mul_cancel h
  calc total / (1000000 / speed)
      = total * speed / (1000000 / speed * speed) := (Nat.mul_div_mul_right _ _ hslow).symm
    _ = total * speed / 1000000 := by rw [hround]

/-- A single delay already tells whether it has been rounded. -/
theorem dvd_of_rate_eq {speed : Nat} (h : 1 = 1000000 / speed * speed / 1000000) :
    speed ∣ 1000000 := by
  have hle : 1000000 / speed * speed ≤ 1000000 := Nat.div_mul_le_self _ _
  have hround : 1000000 / speed * speed = 1000000 := by omega
  exact ⟨1000000 / speed, by rw [Nat.mul_comm, hround]⟩

namespace Session

variable {delay : Nat}

/-! ## Stretches -/

/-- What does not fill a cycle is carried over, turn by turn. -/
theorem pace_of_steady (hdelay : 0 < delay) {patience : Nat} {s : Session} {first : Turn}
    {rest : List Turn} (hcalm : ∀ t ∈ rest, t.toggles = false)
    (hsteady : s.Steady delay patience (first :: rest)) :
    (s.cyclesOver delay patience (first :: rest)).sum
      = (s.due first + totalMicros rest) / delay
      ∧ ∃ finish, s.after? delay patience (first :: rest) = some finish
        ∧ finish.pending = (s.due first + totalMicros rest) % delay := by
  induction rest generalizing s first with
  | nil =>
    obtain ⟨hmode, hfails, -⟩ := hsteady
    obtain ⟨hcount, r, hturn⟩ := turn_eq_shown hdelay patience hmode hfails
    rw [cyclesOver_cons hturn, after?_cons hturn, hcount]
    exact ⟨rfl, _, rfl, rfl⟩
  | cons second rest ih =>
    obtain ⟨hmode, hfails, hrest⟩ := hsteady
    obtain ⟨hcount, r, hturn⟩ := turn_eq_shown hdelay patience hmode hfails
    obtain ⟨hsum, hfinish⟩ :=
      ih (fun t ht => hcalm t (List.mem_cons_of_mem _ ht)) (hrest _ hturn)
    have hdue : due ⟨r, .running, s.due first % delay⟩ second
        = s.due first % delay + second.micros := by
      rw [due, pending_receiveAll, hcalm second List.mem_cons_self]
      rfl
    -- the first turn takes whole delays off the sum
    have hsplit : s.due first + totalMicros (second :: rest)
        = s.due first % delay + second.micros + totalMicros rest
          + delay * (s.due first / delay) := by
      have := Nat.mod_add_div (s.due first) delay
      rw [totalMicros_cons]
      omega
    rw [hdue] at hsum hfinish
    rw [cyclesOver_cons hturn, List.sum_cons, hcount, hsum, after?_cons hturn, hsplit,
      Nat.add_mul_div_left _ _ hdelay, Nat.add_mul_mod_self_left]
    exact ⟨Nat.add_comm _ _, hfinish⟩

/-- A stretch of turns in which time is counted without a break: it begins a session, or
its first turn pauses or resumes, and no later one does. The machine runs in all of its
turns and no step fails. -/
structure Stretch (delay patience : Nat) (start : Session) (first : Turn) (rest : List Turn) :
    Prop where
  begins : (∃ r, start = { recorder := r }) ∨ first.toggles = true
  calm : ∀ t ∈ rest, t.toggles = false
  steady : start.Steady delay patience (first :: rest)

/-- Nothing is pending from before a stretch. -/
theorem Stretch.due_first {patience : Nat} {start : Session} {first : Turn} {rest : List Turn}
    (h : start.Stretch delay patience first rest) : start.due first = first.micros := by
  rw [due, pending_receiveAll]
  rcases h.begins with ⟨r, rfl⟩ | htoggles
  · show (if first.toggles then 0 else 0) + first.micros = first.micros
    rw [ite_self, Nat.zero_add]
  · rw [htoggles, if_pos rfl, Nat.zero_add]

theorem Stretch.pace (hdelay : 0 < delay) {patience : Nat} {start : Session} {first : Turn}
    {rest : List Turn} (h : start.Stretch delay patience first rest) :
    (start.cyclesOver delay patience (first :: rest)).sum = totalMicros (first :: rest) / delay
      ∧ ∃ finish, start.after? delay patience (first :: rest) = some finish
        ∧ finish.pending = totalMicros (first :: rest) % delay := by
  rw [totalMicros_cons, ← h.due_first]
  exact pace_of_steady hdelay h.calm h.steady

/-! ## How time is cut into turns -/

theorem due_of_quiet {s : Session} {t : Turn} (h : t.events = []) :
    s.due t = s.pending + t.micros := by
  rw [due, h]
  rfl

/-- Turns without events after a first one are as good as one turn that takes as long as
all of them. -/
theorem after?_of_quiet (hdelay : 0 < delay) (patience : Nat) {s : Session} {first : Turn}
    {rest : List Turn} (hmode : (s.receiveAll first.events).mode = .running)
    (hquiet : ∀ t ∈ rest, t.events = []) :
    s.after? delay patience (first :: rest) =
      match settle delay patience (s.due first + totalMicros rest)
        (s.receiveAll first.events).recorder with
      | .settled r left => some ⟨r, .running, left⟩
      | _ => none := by
  induction rest generalizing s first with
  | nil =>
    have htotal : totalMicros [] = 0 := rfl
    rw [after?, turn_of_running patience hmode, htotal, Nat.add_zero]
    cases settle delay patience (s.due first) (s.receiveAll first.events).recorder <;> rfl
  | cons second rest ih =>
    rw [after?, turn_of_running patience hmode, settle_add hdelay]
    cases settle delay patience (s.due first) (s.receiveAll first.events).recorder with
    | settled r left =>
      have hevents : second.events = [] := hquiet second List.mem_cons_self
      have hrunning : (Session.receiveAll ⟨r, .running, left⟩ second.events).mode
          = .running := by
        rw [hevents]
        rfl
      have hsecond := ih hrunning fun t ht => hquiet t (List.mem_cons_of_mem _ ht)
      rw [due_of_quiet hevents, hevents, Nat.add_assoc] at hsecond
      exact hsecond
    | failed r e => rfl
    | unsettled r => rfl

theorem after?_eq_of_totalMicros_eq (hdelay : 0 < delay) (patience : Nat) {s : Session}
    {first first' : Turn} {rest rest' : List Turn}
    (hmode : (s.receiveAll first.events).mode = .running)
    (hevents : first'.events = first.events) (hquiet : ∀ t ∈ rest, t.events = [])
    (hquiet' : ∀ t ∈ rest', t.events = [])
    (htotal : totalMicros (first :: rest) = totalMicros (first' :: rest')) :
    s.after? delay patience (first :: rest) = s.after? delay patience (first' :: rest') := by
  have hdue : s.due first + totalMicros rest = s.due first' + totalMicros rest' := by
    rw [totalMicros_cons, totalMicros_cons] at htotal
    rw [due, due, hevents]
    omega
  have hmode' : (s.receiveAll first'.events).mode = .running := by rw [hevents, hmode]
  rw [after?_of_quiet hdelay patience hmode hquiet,
    after?_of_quiet hdelay patience hmode' hquiet', hdue, hevents]

/-! ## What the machine has no part in -/

theorem turn_ne_failed_of_play {patience : Nat} {s : Session} {t : Turn} {rest : List Turn}
    {shown : Array Screen} (h : (s.play delay patience (t :: rest) shown).ending = .quit)
    (r : Recorder) (e : Error) : s.turn delay patience t ≠ .failed r e := by
  intro hturn
  rw [play, hturn] at h
  cases h

/-- Of two sessions that differ in their machines alone, and in both of which no step
fails, every turn tries the same number of steps. -/
theorem cyclesOver_congr (hdelay : 0 < delay) (patience : Nat) {s s' : Session}
    (hmode : s.mode = s'.mode) (hpending : s.pending = s'.pending) (turns : List Turn)
    {shown shown' : Array Screen} (h : (s.play delay patience turns shown).ending = .quit)
    (h' : (s'.play delay patience turns shown').ending = .quit) :
    s.cyclesOver delay patience turns = s'.cyclesOver delay patience turns := by
  induction turns generalizing s s' shown shown' with
  | nil => rfl
  | cons t rest ih =>
    obtain ⟨hmodes, hpendings⟩ := receiveAll_congr hmode hpending t.events
    cases hreceived : (s.receiveAll t.events).mode with
    | running =>
      have hreceived' : (s'.receiveAll t.events).mode = .running := hmodes ▸ hreceived
      obtain ⟨hcount, r, hturn⟩ :=
        turn_eq_shown hdelay patience hreceived (turn_ne_failed_of_play h)
      obtain ⟨hcount', r', hturn'⟩ :=
        turn_eq_shown hdelay patience hreceived' (turn_ne_failed_of_play h')
      have hdue : s'.due t = s.due t := by rw [due, due, hpendings]
      rw [hdue] at hcount' hturn'
      rw [play, hturn] at h
      rw [play, hturn'] at h'
      rw [cyclesOver_cons hturn, cyclesOver_cons hturn', hcount, hcount']
      exact congrArg _ (ih rfl rfl h h')
    | paused =>
      have hreceived' : (s'.receiveAll t.events).mode = .paused := hmodes ▸ hreceived
      have hturn : s.turn delay patience t = .shown (s.receiveAll t.events) :=
        turn_of_paused patience hreceived
      have hturn' : s'.turn delay patience t = .shown (s'.receiveAll t.events) :=
        turn_of_paused patience hreceived'
      rw [play, hturn] at h
      rw [play, hturn'] at h'
      rw [cyclesOver_cons hturn, cyclesOver_cons hturn', cycles, cycles, hreceived,
        hreceived']
      exact congrArg _ (ih hmodes hpendings h h')
    | quit =>
      have hreceived' : (s'.receiveAll t.events).mode = .quit := hmodes ▸ hreceived
      rw [cyclesOver, cyclesOver, turn_of_quit patience hreceived,
        turn_of_quit patience hreceived', cycles, cycles, hreceived, hreceived']

/-! ## A machine that never fails -/

theorem spins_receiveAll {s : Session} (h : s.recorder.machine.Spins) (events : List Event) :
    (s.receiveAll events).recorder.machine.Spins := by
  induction events generalizing s with
  | nil => exact h
  | cons e rest ih =>
    have hreceive : (s.receive e).recorder.machine.Spins := by
      unfold receive
      -- a key that moves does not change the word
      rcases e.action? with _ | ⟨key, down⟩ | _ | _ <;> exact h
    exact ih hreceive

theorem turn_of_spins (hdelay : 0 < delay) (patience : Nat) {s : Session} {t : Turn}
    (hmode : (s.receiveAll t.events).mode = .running) (h : s.recorder.machine.Spins) :
    ∃ s', s.turn delay patience t = .shown s' ∧ s'.mode = .running
      ∧ s'.recorder.machine.Spins := by
  obtain ⟨r, left, hsettle, hspins⟩ :=
    settle_of_spins hdelay patience (s.due t) (spins_receiveAll h t.events)
  refine ⟨⟨r, .running, left⟩, ?_, rfl, hspins⟩
  rw [turn_of_running patience hmode, hsettle]

theorem steady_of_spins (hdelay : 0 < delay) (patience : Nat) {s : Session} {first : Turn}
    {rest : List Turn} (hmode : (s.receiveAll first.events).mode = .running)
    (hquiet : ∀ t ∈ rest, t.events = []) (h : s.recorder.machine.Spins) :
    s.Steady delay patience (first :: rest) := by
  induction rest generalizing s first with
  | nil =>
    obtain ⟨s', hturn, -, -⟩ := turn_of_spins hdelay patience hmode h
    exact steady_cons hmode hturn trivial
  | cons second rest ih =>
    obtain ⟨s', hturn, hrunning, hspins⟩ := turn_of_spins hdelay patience hmode h
    refine steady_cons hmode hturn ?_
    refine ih ?_ (fun t ht => hquiet t (List.mem_cons_of_mem _ ht)) hspins
    rw [hquiet second List.mem_cons_self]
    exact hrunning

end Session

/-- **No cycle is lost and none is run twice.** Let a speed be between one and a million
cycles in a second, and the delay a million over it, rounded down. Over every stretch of
turns

* the steps are the whole delays in the sum of the times, what is left of the sum stays
  pending, and the machine is what the keys of the turns and these steps make of it;
* the steps are at least as many as the speed asks for, and always just as many iff the
  delay was not rounded.

After a turn in which the machine runs, turns without events lead to a session that
depends on the sum of their times alone. And until a step fails, no two machines differ in
the number of steps in a turn. -/
theorem no_cycle_lost (s : Settings) (hslow : 1 ≤ s.speed.toNat)
    (hfast : s.speed.toNat ≤ 1000000) (patience : Nat) :
    (∀ (start : Session) (first : Turn) (rest : List Turn),
      start.Stretch s.cycleDelay patience first rest →
      (start.cyclesOver s.cycleDelay patience (first :: rest)).sum
          = totalMicros (first :: rest) / (1000000 / s.speed.toNat)
        ∧ totalMicros (first :: rest) * s.speed.toNat / 1000000
          ≤ (start.cyclesOver s.cycleDelay patience (first :: rest)).sum
        ∧ ∃ finish, start.after? s.cycleDelay patience (first :: rest) = some finish
          ∧ finish.pending = totalMicros (first :: rest) % (1000000 / s.speed.toNat)
          ∧ finish.recorder
            = start.recorder.run (start.inputsOver s.cycleDelay patience (first :: rest)))
      ∧ ((∀ (start : Session) (first : Turn) (rest : List Turn),
          start.Stretch s.cycleDelay patience first rest →
          (start.cyclesOver s.cycleDelay patience (first :: rest)).sum
            = totalMicros (first :: rest) * s.speed.toNat / 1000000)
        ↔ s.speed.toNat ∣ 1000000)
      ∧ (∀ (start : Session) (first first' : Turn) (rest rest' : List Turn),
        (start.receiveAll first.events).mode = .running → first'.events = first.events →
        (∀ t ∈ rest, t.events = []) → (∀ t ∈ rest', t.events = []) →
        totalMicros (first :: rest) = totalMicros (first' :: rest') →
        start.after? s.cycleDelay patience (first :: rest)
          = start.after? s.cycleDelay patience (first' :: rest'))
      ∧ ∀ (r r' : Recorder) (turns : List Turn),
        (Session.play s.cycleDelay patience { recorder := r } turns).ending = .quit →
        (Session.play s.cycleDelay patience { recorder := r' } turns).ending = .quit →
        Session.cyclesOver s.cycleDelay patience { recorder := r } turns
          = Session.cyclesOver s.cycleDelay patience { recorder := r' } turns := by
  have hdelay : 0 < s.cycleDelay := (cycleDelay_pos_iff s).mpr hfast
  have hdelays := cycleDelay_eq hslow
  refine ⟨?_, ⟨?_, ?_⟩, ?_, ?_⟩
  · -- the count of a stretch
    intro start first rest h
    obtain ⟨hsum, finish, hfinish, hleft⟩ := h.pace hdelay
    rw [hsum, ← hdelays]
    refine ⟨rfl, ?_, finish, hfinish, hleft, Session.recorder_after? hfinish⟩
    rw [hdelays]
    exact rate_le hslow hfast _
  · -- no rounding: a turn of one delay on a machine that spins is a stretch that would show it
    intro hexact
    let first : Turn := ⟨s.cycleDelay * 1000, []⟩
    have hstretch : Session.Stretch s.cycleDelay patience
        { recorder := { machine := spinning } }
        first [] :=
      ⟨.inl ⟨_, rfl⟩, by simp,
        Session.steady_of_spins hdelay patience rfl (by simp) spins_spinning⟩
    have htotal : totalMicros [first] = s.cycleDelay := by
      show s.cycleDelay * 1000 / 1000 + 0 = s.cycleDelay
      omega
    have hone := hexact _ _ _ hstretch
    rw [(hstretch.pace hdelay).1, htotal, Nat.div_self hdelay, hdelays] at hone
    exact dvd_of_rate_eq hone
  · intro hdvd start first rest h
    rw [(h.pace hdelay).1, hdelays]
    exact rate_eq_of_dvd hslow hdvd _
  · -- other cuts of the same time
    intro start first first' rest rest' hmode hevents hquiet hquiet' htotal
    exact Session.after?_eq_of_totalMicros_eq hdelay patience hmode hevents hquiet hquiet'
      htotal
  · -- other machines
    intro r r' turns h h'
    have hmode : (⟨r, .running, 0⟩ : Session).mode = (⟨r', .running, 0⟩ : Session).mode := rfl
    exact Session.cyclesOver_congr hdelay patience hmode rfl turns h h'

/-- At 700 cycles in a second the delay is 1428 microseconds. A session is resumed, which
drops the 99 microseconds that were pending, and 2000 and 999 microseconds make two
cycles. -/
theorem no_cycle_lost_after_pause :
    let s : Settings := { speed := 700 }
    let start : Session := ⟨{ machine := spinning }, .paused, 99⟩
    let first : Turn := ⟨2000999, [.keyDown (some .space) false]⟩
    let rest : List Turn := [⟨999999, []⟩]
    1 ≤ s.speed.toNat ∧ s.speed.toNat ≤ 1000000
      ∧ start.Stretch s.cycleDelay 0 first rest
      ∧ (start.cyclesOver s.cycleDelay 0 (first :: rest)).sum = 2
      ∧ ∃ finish, start.after? s.cycleDelay 0 (first :: rest) = some finish
        ∧ finish.pending = 143 := by
  intro s start first rest
  have hslow : 1 ≤ s.speed.toNat := by decide
  have hfast : s.speed.toNat ≤ 1000000 := by decide
  have hdelay : 0 < s.cycleDelay := by decide
  have hquiet : ∀ t ∈ rest, t.events = [] := by simp [rest]
  have hstretch : start.Stretch s.cycleDelay 0 first rest :=
    ⟨.inr rfl, by simp [rest, Turn.toggles],
      Session.steady_of_spins hdelay 0 rfl hquiet spins_spinning⟩
  have htotal : totalMicros (first :: rest) = 2999 := by decide
  have hdelays : 1000000 / s.speed.toNat = 1428 := by decide
  obtain ⟨hsum, -, finish, hfinish, hleft, -⟩ :=
    (no_cycle_lost s hslow hfast 0).1 start first rest hstretch
  rw [htotal, hdelays] at hsum hleft
  exact ⟨hslow, hfast, hstretch, hsum, finish, hfinish, hleft⟩

end Chip8.Host
