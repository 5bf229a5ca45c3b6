import Stakan.Library.Alternating
import Stakan.TcpClient.Lifecycle

namespace Stakan.TcpClient
open LabelledRun
open Alternating (Alternates isOpen isOpen_snoc alternates_snoc alternates_nil)

/-- The reports of connections and of their ends take turns, and a connection comes first. -/
abbrev ReportsAlternate (reports : List Report) : Prop := Alternates (· = .onConnected) reports

namespace Lifecycle

/-- `Disconnect` finds that the background thread has not reported the end
of the connection, and `Connect` that it is not about to report an earlier one. -/
def ReportsOnce (s : Lifecycle) : Event → Prop
  | .report => s.reader.reported = false
  | .announce => s.reader ≠ .reporting
  | _ => True

/-- What the flag, the background thread and the count of the reports tell in
each phase of the owner. Outside of `Connect` and `Disconnect` the flag is
set while the thread is in its loop, and a connection is open until it ends. -/
def Accounts (connected : Bool) (reader : ReaderPhase) (opened : Bool) : CallerPhase → Prop
  | .idle => connected = reader.looping ∧ opened = reader.active
  | .resolving | .destructing | .gone => connected = false ∧ reader.looping = false ∧ opened = reader.active
  | .announcing => connected = true ∧ reader.looping = false ∧ opened = reader.active
  | .spawning => connected = true ∧ reader.active = false ∧ opened = true
  | .clearing => opened = !reader.reported
  | .closing | .joining => connected = false ∧ opened = !reader.reported
  | .reporting => connected = false ∧ reader.active = false ∧ opened = !reader.reported

structure Accounted (s : Lifecycle) : Prop where
  alternates : ReportsAlternate s.reports
  owned : s.Owned
  phase : Accounts s.connected s.reader (isOpen s.reports) s.caller

theorem accounted_initial : Accounted {} where
  alternates := alternates_nil _
  owned := nofun
  phase := ⟨rfl, rfl⟩

section Accounts

variable {connected opened : Bool} {reader : ReaderPhase} {caller : CallerPhase}

/-- Within its loop it does not matter where the background thread is. -/
theorem Accounts.goes_on {next : ReaderPhase} (phase : Accounts connected reader opened caller)
    (before : reader.looping = true) (after : next.looping = true) : Accounts connected next opened caller := by
  obtain ⟨active, reported⟩ := ReaderPhase.reported_of_looping before
  obtain ⟨active', reported'⟩ := ReaderPhase.reported_of_looping after
  cases caller with
  | _ =>
    simp only [Accounts, before, after, active, active', reported, reported'] at phase ⊢
    exact phase

/-- A background thread that sees the flag clear ends in silence. -/
theorem Accounts.ends (phase : Accounts false .checking opened caller) :
    Accounts false (.ended false) opened caller := by
  cases caller with
  | idle => exact absurd phase.1 nofun
  | clearing | closing | joining => exact phase
  | _ => exact absurd phase.2.1 nofun

theorem Accounts.clears (phase : Accounts connected .failed opened caller) :
    Accounts false .reporting opened caller := by
  cases caller with
  | idle => exact ⟨rfl, phase.2⟩
  | clearing => exact phase
  | closing | joining => exact ⟨rfl, phase.2⟩
  | _ => exact absurd phase.2.1 nofun

/-- Between clearing the flag and its report the background thread leaves
the connection open, and the report closes it. -/
theorem Accounts.opened_of_reporting (phase : Accounts connected .reporting opened caller) : opened = true := by
  cases caller with
  | idle => exact phase.2
  | clearing => exact phase
  | closing | joining => exact phase.2
  | resolving | announcing | destructing | gone => exact phase.2.2
  | spawning | reporting => exact absurd phase.2.1 nofun

theorem Accounts.reports (phase : Accounts connected .reporting opened caller) :
    Accounts connected (.ended true) (!opened) caller := by
  rw [phase.opened_of_reporting]
  cases caller with
  | idle => exact ⟨phase.1, rfl⟩
  | clearing => exact rfl
  | closing | joining => exact ⟨phase.1, rfl⟩
  | resolving | announcing | destructing | gone => exact ⟨phase.1, rfl, rfl⟩
  | spawning | reporting => exact absurd phase.2.1 nofun

/-- `Disconnect` and the destructor get past the check of the flag only with
an open connection. -/
theorem Accounts.disconnects (phase : Accounts true reader opened .idle) :
    Accounts true reader opened .clearing := by
  obtain ⟨flag, opens⟩ := phase
  obtain ⟨active, reported⟩ := ReaderPhase.reported_of_looping flag.symm
  exact opens.trans (by rw [active, reported]; rfl)

theorem Accounts.announces (phase : Accounts connected reader opened .announcing) (done : reader ≠ .reporting) :
    opened = false ∧ Accounts connected reader (!opened) .spawning := by
  obtain ⟨on, quiet, opens⟩ := phase
  have inactive := ReaderPhase.not_active quiet done
  rw [opens, inactive]
  exact ⟨rfl, on, inactive, rfl⟩

/-- The report of `Disconnect`. It may be followed by the destructor. -/
theorem Accounts.disconnected (phase : Accounts connected reader opened .reporting) (first : reader.reported = false) :
    opened = true ∧ Accounts connected reader (!opened) .idle ∧
      Accounts connected reader (!opened) .destructing := by
  obtain ⟨off, inactive, opens⟩ := phase
  have quiet := ReaderPhase.not_looping inactive
  rw [opens, first]
  exact ⟨rfl, ⟨off.trans quiet.symm, inactive.symm⟩, ⟨off, quiet, inactive.symm⟩⟩

end Accounts

theorem Accounted.phase_perform {s : Lifecycle} {event : Event} (accounted : s.Accounted)
    (once : s.ReportsOnce event) (enabled : s.Enabled event) :
    Accounts (s.perform event).connected (s.perform event).reader (isOpen (s.perform event).reports)
      (s.perform event).caller := by
  have phase := accounted.phase
  cases event with
  | connect =>
    rw [perform]
    split
    next => exact phase
    next off =>
      rw [show s.caller = .idle from enabled] at phase
      have off : s.connected = false := by simpa using off
      exact ⟨off, phase.1.symm.trans off, phase.2⟩
  | connectFails =>
    rw [show s.caller = .resolving from enabled] at phase
    exact ⟨phase.1.trans phase.2.1.symm, phase.2.2⟩
  | established =>
    rw [show s.caller = .resolving from enabled] at phase
    exact ⟨rfl, phase.2⟩
  | announce =>
    rw [show s.caller = .announcing from enabled] at phase
    show Accounts s.connected s.reader (isOpen (s.reports ++ [.onConnected])) .spawning
    rw [isOpen_snoc]
    exact (phase.announces once).2
  | spawn =>
    rw [perform]
    split
    next => exact phase
    next =>
      rw [show s.caller = .spawning from enabled] at phase
      exact ⟨phase.1, phase.2.2⟩
  | disconnect =>
    rw [perform]
    split
    next on =>
      rw [show s.caller = .idle from enabled, on] at phase
      exact phase.disconnects
    next => exact phase
  | destroy =>
    rw [show s.caller = .idle from enabled] at phase
    show Accounts s.connected s.reader (isOpen s.reports) (if s.connected then .clearing else .destructing)
    split
    next on =>
      rw [on] at phase
      exact phase.disconnects
    next off =>
      have off : s.connected = false := by simpa using off
      exact ⟨off, phase.1.symm.trans off, phase.2⟩
  | clearFlag =>
    rw [show s.caller = .clearing from enabled] at phase
    exact ⟨rfl, phase⟩
  | close =>
    rw [show s.caller = .closing from enabled] at phase
    exact phase
  | join =>
    obtain ⟨joining, ended⟩ := enabled
    rw [joining] at phase
    have inactive : s.reader.active = false := by
      by_contra active
      exact active (ended (accounted.owned (by simpa using active)))
    exact ⟨phase.1, inactive, phase.2⟩
  | report =>
    rw [show s.caller = .reporting from enabled] at phase
    obtain ⟨_, idle, destructing⟩ := phase.disconnected once
    show Accounts s.connected s.reader (isOpen (s.reports ++ [.onDisconnected]))
      (if s.destroying then .destructing else .idle)
    rw [isOpen_snoc]
    split
    next => exact destructing
    next => exact idle
  | destruct =>
    rw [perform]
    split
    next => exact phase
    next =>
      rw [show s.caller = .destructing from enabled] at phase
      exact phase
  | check =>
    rw [show s.reader = .checking from enabled] at phase
    show Accounts s.connected (if s.connected then .reading else .ended false) (isOpen s.reports) s.caller
    split
    next => exact phase.goes_on rfl rfl
    next off =>
      have off : s.connected = false := by simpa using off
      rw [off] at phase ⊢
      exact phase.ends
  | readOk =>
    rw [enabled.1] at phase
    exact phase.goes_on rfl rfl
  | readFails =>
    rw [show s.reader = .reading from enabled] at phase
    exact phase.goes_on rfl rfl
  | clear =>
    rw [show s.reader = .failed from enabled] at phase
    exact phase.clears
  | readerReport =>
    rw [show s.reader = .reporting from enabled] at phase
    show Accounts s.connected (.ended true) (isOpen (s.reports ++ [.onDisconnected])) s.caller
    rw [isOpen_snoc]
    exact phase.reports

/-- A report comes when the alternation asks for it. -/
theorem Accounted.alternates_perform {s : Lifecycle} {event : Event} (accounted : s.Accounted)
    (once : s.ReportsOnce event) (enabled : s.Enabled event) : ReportsAlternate (s.perform event).reports := by
  have phase := accounted.phase
  have alternates := accounted.alternates
  cases event with
  | announce =>
    rw [show s.caller = .announcing from enabled] at phase
    exact alternates_snoc.mpr ⟨alternates, iff_of_true rfl (phase.announces once).1⟩
  | report =>
    rw [show s.caller = .reporting from enabled] at phase
    exact alternates_snoc.mpr ⟨alternates, iff_of_false nofun (by rw [(phase.disconnected once).1]; nofun)⟩
  | readerReport =>
    rw [show s.reader = .reporting from enabled] at phase
    exact alternates_snoc.mpr ⟨alternates, iff_of_false nofun (by rw [phase.opened_of_reporting]; nofun)⟩
  | connect | disconnect | spawn | destruct =>
    rw [perform]
    split <;> exact alternates
  | _ => exact alternates

theorem Accounted.step {s after : Lifecycle} {event : Event} (accounted : s.Accounted) (once : s.ReportsOnce event)
    (moved : step s event = some after) : after.Accounted := by
  have owned := accounted.owned.step moved
  obtain ⟨_, enabled, rfl⟩ := step_eq_some.mp moved
  exact ⟨accounted.alternates_perform once enabled, owned, accounted.phase_perform once enabled⟩

/-- A second report of the same end, or a new connection before the end of
the last one, breaks the alternation. -/
theorem Accounted.not_alternates {s after : Lifecycle} {event : Event} (accounted : s.Accounted)
    (twice : ¬s.ReportsOnce event) (moved : Lifecycle.step s event = some after) :
    ¬ReportsAlternate after.reports := by
  have phase := accounted.phase
  obtain ⟨_, enabled, rfl⟩ := step_eq_some.mp moved
  intro alternates
  cases event with
  | announce =>
    have closed := (alternates_snoc.mp alternates).2.mp rfl
    rw [show s.reader = .reporting from not_not.mp twice] at phase
    rw [phase.opened_of_reporting] at closed
    contradiction
  | report =>
    rw [show s.caller = .reporting from enabled] at phase
    have reported : s.reader.reported = true := by simpa [ReportsOnce] using twice
    have closed : isOpen s.reports = false := phase.2.2.trans (by rw [reported]; rfl)
    exact absurd ((alternates_snoc.mp alternates).2.mpr closed) nofun
  | _ => exact twice trivial

/-- The reports alternate all along a run exactly if `Disconnect` never
reports an end that the background thread has reported already, and
`Connect` announces no connection while the end of the last one is unreported. -/
theorem always_alternates_iff (events : List Event) (last : Lifecycle) (run : exec step {} events = some last) :
    Always step (fun s => ReportsAlternate s.reports) {} events ↔ Guarded step ReportsOnce {} events :=
  always_iff_guarded_of_invariant (fun _ accounted => accounted.alternates)
    (fun _ _ _ accounted once moved => accounted.step once moved)
    (fun _ _ _ accounted twice moved => accounted.not_alternates twice moved) run accounted_initial

/-- Closing the socket fails the read that waits on it: both threads report the end. -/
theorem disconnect_reported_twice : ¬∀ events last, exec step {} events = some last → ReportsAlternate last.reports := by
  intro claim
  let events : List Event := [.connect, .established, .announce, .spawn, .check, .disconnect, .clearFlag, .close,
    .readFails, .clear, .readerReport, .join, .report]
  obtain ⟨last, run, reports⟩ : ∃ last, exec step {} events = some last ∧
      last.reports = [.onConnected, .onDisconnected, .onDisconnected] := ⟨_, rfl, rfl⟩
  have alternates := claim events last run
  rw [reports] at alternates
  exact absurd ((alternates 2 .onDisconnected rfl).mpr rfl) nofun

/-- A background thread that sees the flag before it reads again reports nothing. -/
theorem disconnect_reported_once : Always step (fun s => ReportsAlternate s.reports) {}
    [.connect, .established, .announce, .spawn, .disconnect, .clearFlag, .close, .check, .join, .report] := by
  refine (always_alternates_iff _ _ rfl).mpr ?_
  refine guarded_cons trivial rfl (guarded_cons trivial rfl (guarded_cons nofun rfl (guarded_cons trivial rfl ?_)))
  refine guarded_cons trivial rfl (guarded_cons trivial rfl (guarded_cons trivial rfl (guarded_cons trivial rfl ?_)))
  exact guarded_cons trivial rfl (guarded_cons rfl rfl (guarded_nil _ _ _))

end Lifecycle

end Stakan.TcpClient
