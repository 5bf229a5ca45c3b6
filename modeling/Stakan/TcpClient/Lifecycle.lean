import Stakan.Library.LabelledRun

namespace Stakan.TcpClient

/-- Where the background thread is. It ends because the flag of its loop is
clear, or through its handler of exceptions. -/
inductive ReaderPhase
  | absent
  | checking
  | reading
  | failed
  | reporting
  | ended (byError : Bool)
  deriving DecidableEq

/-- The thread has not ended. -/
def ReaderPhase.active : ReaderPhase → Bool
  | .absent | .ended _ => false
  | .checking | .reading | .failed | .reporting => true

/-- The thread has not come to clear the flag. -/
def ReaderPhase.looping : ReaderPhase → Bool
  | .checking | .reading | .failed => true
  | .absent | .reporting | .ended _ => false

/-- The thread has reported the end of the connection. -/
def ReaderPhase.reported : ReaderPhase → Bool
  | .ended byError => byError
  | _ => false

theorem ReaderPhase.reported_of_looping {reader : ReaderPhase} (looping : reader.looping = true) :
    reader.active = true ∧ reader.reported = false := by
  cases reader <;> first | exact ⟨rfl, rfl⟩ | contradiction

theorem ReaderPhase.not_looping {reader : ReaderPhase} (inactive : reader.active = false) :
    reader.looping = false := by
  cases reader <;> first | rfl | contradiction

theorem ReaderPhase.not_active {reader : ReaderPhase} (quiet : reader.looping = false) (done : reader ≠ .reporting) :
    reader.active = false := by
  cases reader <;> first | rfl | contradiction

/-- Where the thread that owns the client is: in `Connect`, in `Disconnect`,
which the destructor calls too, or in the destructor after that. -/
inductive CallerPhase
  | idle
  | resolving
  | announcing
  | spawning
  | clearing
  | closing
  | joining
  | reporting
  | destructing
  | gone
  deriving DecidableEq

/-- The callbacks about the connection. -/
inductive Report
  | onConnected
  | onDisconnected
  deriving DecidableEq

/-- A client with its background thread. -/
structure Lifecycle where
  connected : Bool := false
  socketOpen : Bool := false
  joinable : Bool := false
  reader : ReaderPhase := .absent
  caller : CallerPhase := .idle
  destroying : Bool := false
  terminated : Bool := false
  reports : List Report := []
  deriving DecidableEq

namespace Lifecycle

/-- The owner enters `Connect`, `Disconnect` or the destructor, or goes on
there; or the background thread goes on. Every event is one access to what
the two threads share. -/
inductive Event
  | connect
  | connectFails (resolved : Bool)
  | established
  | announce
  | spawn
  | disconnect
  | destroy
  | clearFlag
  | close
  | join
  | report
  | destruct
  | check
  | readOk
  | readFails
  | clear
  | readerReport
  deriving DecidableEq

/-- When an event can happen. The join waits for the background thread, and
nothing can be read from a closed socket. -/
def Enabled (s : Lifecycle) : Event → Prop
  | .connect | .disconnect | .destroy => s.caller = .idle
  | .connectFails _ | .established => s.caller = .resolving
  | .announce => s.caller = .announcing
  | .spawn => s.caller = .spawning
  | .clearFlag => s.caller = .clearing
  | .close => s.caller = .closing
  | .join => s.caller = .joining ∧ (s.joinable = true → s.reader.active = false)
  | .report => s.caller = .reporting
  | .destruct => s.caller = .destructing
  | .check => s.reader = .checking
  | .readOk => s.reader = .reading ∧ s.socketOpen = true
  | .readFails => s.reader = .reading
  | .clear => s.reader = .failed
  | .readerReport => s.reader = .reporting

instance (s : Lifecycle) (event : Event) : Decidable (s.Enabled event) := by
  cases event <;> unfold Enabled <;> infer_instance

/-- What an event does. A thread object that is assigned or destroyed while
it is joinable terminates the program. -/
def perform (s : Lifecycle) : Event → Lifecycle
  | .connect => if s.connected then s else { s with caller := .resolving }
  | .connectFails resolved => { s with socketOpen := s.socketOpen && !resolved, caller := .idle }
  | .established => { s with connected := true, socketOpen := true, caller := .announcing }
  | .announce => { s with reports := s.reports ++ [.onConnected], caller := .spawning }
  | .spawn =>
    if s.joinable then { s with terminated := true }
    else { s with joinable := true, reader := .checking, caller := .idle }
  | .disconnect => if s.connected then { s with caller := .clearing } else s
  | .destroy => { s with destroying := true, caller := if s.connected then .clearing else .destructing }
  | .clearFlag => { s with connected := false, caller := .closing }
  | .close => { s with socketOpen := false, caller := .joining }
  | .join => { s with joinable := false, caller := .reporting }
  | .report =>
    { s with
      reports := s.reports ++ [.onDisconnected]
      caller := if s.destroying then .destructing else .idle }
  | .destruct => if s.joinable then { s with terminated := true } else { s with caller := .gone }
  | .check => { s with reader := if s.connected then .reading else .ended false }
  | .readOk => { s with reader := .checking }
  | .readFails => { s with reader := .failed }
  | .clear => { s with connected := false, reader := .reporting }
  | .readerReport => { s with reports := s.reports ++ [.onDisconnected], reader := .ended true }

def step (s : Lifecycle) (event : Event) : Option Lifecycle :=
  if s.terminated = false ∧ s.Enabled event then some (s.perform event) else none

theorem step_eq_some {s after : Lifecycle} {event : Event} :
    step s event = some after ↔ s.terminated = false ∧ s.Enabled event ∧ s.perform event = after := by
  rw [step, Option.ite_none_right_eq_some, Option.some_inj, and_assoc]

/-- A thread that has not ended belongs to the thread object. -/
def Owned (s : Lifecycle) : Prop := s.reader.active = true → s.joinable = true

theorem Owned.step {s after : Lifecycle} {event : Event} (owned : s.Owned) (moved : step s event = some after) :
    after.Owned := by
  obtain ⟨_, enabled, rfl⟩ := step_eq_some.mp moved
  cases event with
  | connect | disconnect =>
    rw [perform]
    split <;> exact owned
  | spawn =>
    rw [perform]
    split
    next => exact owned
    next => exact fun _ => rfl
  | destruct =>
    rw [perform]
    split <;> exact owned
  | join =>
    intro active
    obtain ⟨_, ended⟩ := enabled
    have idle := ended (owned active)
    rw [show s.reader.active = true from active] at idle
    contradiction
  | check | readOk | readFails | clear =>
    refine fun _ => owned ?_
    simp only [Enabled] at enabled
    simp [enabled, ReaderPhase.active]
  | readerReport => exact fun active => absurd active (by simp [perform, ReaderPhase.active])
  | _ => exact owned

end Lifecycle

end Stakan.TcpClient
