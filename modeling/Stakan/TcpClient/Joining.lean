import Stakan.TcpClient.Lifecycle

namespace Stakan.TcpClient.Lifecycle
open LabelledRun

/-- The program has not been terminated, and between the calls of the owner
a clear flag means that there is no thread left to join. -/
structure ThreadJoined (s : Lifecycle) : Prop where
  alive : s.terminated = false
  joined : s.caller = .idle → s.connected = false → s.joinable = false

/-- The background thread clears the flag only in a `Disconnect` that is past its check. -/
def ClearsInDisconnect (s : Lifecycle) : Event → Prop
  | .clear => s.caller = .clearing ∨ s.caller = .closing ∨ s.caller = .joining
  | _ => True

/-- What the flag tells about the thread object in each phase of the owner.
From the check of the flag to the new thread, and after the join, there is
no thread to join. -/
def Joins (connected joinable : Bool) : CallerPhase → Prop
  | .idle => connected = false → joinable = false
  | .announcing | .spawning => connected = true ∧ joinable = false
  | .resolving | .reporting | .destructing | .gone => joinable = false
  | .clearing | .closing | .joining => True

structure Joining (s : Lifecycle) : Prop where
  alive : s.terminated = false
  owned : s.Owned
  phase : Joins s.connected s.joinable s.caller

theorem joining_initial : Joining {} where
  alive := rfl
  owned := nofun
  phase := fun _ => rfl

theorem Joining.threadJoined {s : Lifecycle} (joining : s.Joining) : s.ThreadJoined where
  alive := joining.alive
  joined idle := by
    have phase := joining.phase
    rw [idle] at phase
    exact phase

theorem Joining.phase_perform {s : Lifecycle} {event : Event} (joining : s.Joining)
    (clears : s.ClearsInDisconnect event) (enabled : s.Enabled event) :
    Joins (s.perform event).connected (s.perform event).joinable (s.perform event).caller := by
  have phase := joining.phase
  cases event with
  | connect =>
    rw [perform]
    split
    next => exact phase
    next off =>
      rw [show s.caller = .idle from enabled] at phase
      exact phase (by simpa using off)
  | connectFails =>
    rw [show s.caller = .resolving from enabled] at phase
    exact fun _ => phase
  | established =>
    rw [show s.caller = .resolving from enabled] at phase
    exact ⟨rfl, phase⟩
  | announce =>
    rw [show s.caller = .announcing from enabled] at phase
    exact phase
  | spawn =>
    rw [show s.caller = .spawning from enabled] at phase
    obtain ⟨on, none⟩ := phase
    rw [perform, none]
    intro off
    have on : s.connected = true := on
    rw [show s.connected = false from off] at on
    contradiction
  | disconnect =>
    rw [perform]
    split
    next => exact trivial
    next => exact phase
  | destroy =>
    rw [show s.caller = .idle from enabled] at phase
    show Joins s.connected s.joinable (if s.connected then .clearing else .destructing)
    split
    next => exact trivial
    next off => exact phase (by simpa using off)
  | clearFlag | close => exact trivial
  | join => exact rfl
  | report =>
    rw [show s.caller = .reporting from enabled] at phase
    show Joins s.connected s.joinable (if s.destroying then .destructing else .idle)
    split
    next => exact phase
    next => exact fun _ => phase
  | destruct =>
    rw [show s.caller = .destructing from enabled] at phase
    rw [perform, show s.joinable = false from phase]
    exact rfl
  | clear =>
    show Joins false s.joinable s.caller
    rcases clears with caller | caller | caller <;> rw [caller] <;> exact trivial
  | check | readOk | readFails | readerReport => exact phase

theorem Joining.alive_perform {s : Lifecycle} {event : Event} (joining : s.Joining) (enabled : s.Enabled event) :
    (s.perform event).terminated = false := by
  have phase := joining.phase
  have alive := joining.alive
  cases event with
  | spawn =>
    rw [show s.caller = .spawning from enabled] at phase
    rw [perform, phase.2]
    exact alive
  | destruct =>
    rw [show s.caller = .destructing from enabled] at phase
    rw [perform, show s.joinable = false from phase]
    exact alive
  | connect | disconnect =>
    rw [perform]
    split <;> exact alive
  | _ => exact alive

theorem Joining.step {s after : Lifecycle} {event : Event} (joining : s.Joining) (clears : s.ClearsInDisconnect event)
    (moved : step s event = some after) : after.Joining := by
  have owned := joining.owned.step moved
  obtain ⟨_, enabled, rfl⟩ := step_eq_some.mp moved
  exact ⟨joining.alive_perform enabled, owned, joining.phase_perform clears enabled⟩

/-- Outside of `Disconnect` a background thread can clear the flag only
between the calls of the owner, and it finds it set. -/
theorem Joining.idle_of_clear {s : Lifecycle} (joining : s.Joining) (alone : ¬s.ClearsInDisconnect .clear)
    (enabled : s.Enabled .clear) : s.caller = .idle ∧ s.connected = true ∧ s.joinable = true := by
  have phase := joining.phase
  have active : s.reader.active = true := by
    rw [show s.reader = .failed from enabled]
    rfl
  have joinable := joining.owned active
  rw [joinable] at phase
  cases caller : s.caller with
  | idle =>
    rw [caller] at phase
    refine ⟨rfl, ?_, joinable⟩
    by_contra off
    have joined := phase (by simpa using off)
    contradiction
  | clearing => exact absurd (Or.inl caller) alone
  | closing => exact absurd (Or.inr (Or.inl caller)) alone
  | joining => exact absurd (Or.inr (Or.inr caller)) alone
  | announcing | spawning =>
    rw [caller] at phase
    exact absurd phase.2 nofun
  | resolving | reporting | destructing | gone =>
    rw [caller] at phase
    exact absurd phase nofun

/-- It leaves a thread that nobody joins. -/
theorem Joining.not_threadJoined {s after : Lifecycle} {event : Event} (joining : s.Joining)
    (alone : ¬s.ClearsInDisconnect event) (moved : Lifecycle.step s event = some after) : ¬after.ThreadJoined := by
  obtain ⟨_, enabled, rfl⟩ := step_eq_some.mp moved
  intro threadJoined
  cases event with
  | clear =>
    obtain ⟨idle, _, joinable⟩ := joining.idle_of_clear alone enabled
    have joined : s.joinable = false := threadJoined.joined idle rfl
    rw [joinable] at joined
    contradiction
  | _ => exact alone trivial

/-- No joinable thread object is assigned or destroyed, and none is left
between the calls once the flag is clear, exactly in the runs in which the
background thread clears the flag only while `Disconnect` is ending it. -/
theorem always_threadJoined_iff (events : List Event) (last : Lifecycle) (run : exec step {} events = some last) :
    Always step ThreadJoined {} events ↔ Guarded step ClearsInDisconnect {} events :=
  always_iff_guarded_of_invariant (fun _ joining => joining.threadJoined)
    (fun _ _ _ joining clears moved => joining.step clears moved)
    (fun _ _ _ joining alone moved => joining.not_threadJoined alone moved) run joining_initial

/-- The peer closes the connection, and the client connects again. -/
theorem reconnect_terminates : ¬∀ events last, exec step {} events = some last → last.ThreadJoined := by
  intro claim
  let events : List Event := [.connect, .established, .announce, .spawn, .check, .readFails, .clear, .readerReport,
    .disconnect, .connect, .established, .announce, .spawn]
  obtain ⟨last, run, terminated⟩ : ∃ last, exec step {} events = some last ∧ last.terminated = true := ⟨_, rfl, rfl⟩
  have alive := (claim events last run).alive
  rw [terminated] at alive
  contradiction

/-- `Disconnect` joins the thread whose read it has failed. -/
theorem disconnect_joins : Always step ThreadJoined {}
    [.connect, .established, .announce, .spawn, .check, .disconnect, .clearFlag, .close, .readFails, .clear] := by
  refine (always_threadJoined_iff _ _ rfl).mpr ?_
  refine guarded_cons trivial rfl (guarded_cons trivial rfl (guarded_cons trivial rfl (guarded_cons trivial rfl ?_)))
  refine guarded_cons trivial rfl (guarded_cons trivial rfl (guarded_cons trivial rfl (guarded_cons trivial rfl ?_)))
  exact guarded_cons trivial rfl (guarded_cons (Or.inr (Or.inr rfl)) rfl (guarded_nil _ _ _))

end Stakan.TcpClient.Lifecycle
