import Stakan.Broadcaster.CommandQueue
import Stakan.ClientList.Basic

namespace Stakan

/-- What a start command asks for, and what the handler of each wait carries. -/
structure BroadcastTerms where
  intervalMs : Int32
  useTestBroadcast : Bool := true
  deriving DecidableEq

inductive Command
  | addOrder (clientId : ClientId) (isBid : Bool) (order : Order)
  | removeOrder (clientId : ClientId) (id : ID) (isBid : Bool)
  | startBroadcast (terms : BroadcastTerms)
  | stopBroadcast
  | sendSnapshotToClient (clientId : ClientId) (useTestBroadcast : Bool)

/-- What `GetSnapshot` of the order book does when it is called: it throws,
or it returns a snapshot or none. -/
abbrev Fetched := Except String (Option Snapshot)

/-- The end of a wait, queued on the io_context. -/
structure Completion where
  wait : BroadcastTerms
  error : Bool

/-- The history of the broadcast loop. -/
inductive Action
  | accepted (terms : BroadcastTerms)
  | stopped
  | armed (terms : BroadcastTerms)
  | sent (useTestBroadcast : Bool)
  deriving DecidableEq

/-- The manager with its timer: the waits pending on it, the completions that
are queued, the commands given to the broadcaster, and the history. -/
structure DOMManager where
  broadcasting : Bool := false
  pending : List BroadcastTerms := []
  completions : List Completion := []
  enqueued : List BroadcastCommand := []
  trace : List Action := []

namespace DOMManager

/-- The waits that are pending complete with an error. A completion that is queued stays as it is. -/
def cancel (s : DOMManager) : DOMManager :=
  { s with pending := [], completions := s.completions ++ s.pending.map fun wait => ⟨wait, true⟩ }

/-- A new expiry time, and a wait for it; the waits for the old one are cancelled. -/
def scheduleNextBroadcast (terms : BroadcastTerms) (s : DOMManager) : DOMManager :=
  if !s.broadcasting then s
  else
    let s := s.cancel
    { s with pending := s.pending ++ [terms], trace := s.trace ++ [.armed terms] }

def startBroadcasting (terms : BroadcastTerms) (s : DOMManager) : DOMManager :=
  if s.broadcasting then s
  else scheduleNextBroadcast terms { s with broadcasting := true, trace := s.trace ++ [.accepted terms] }

def stopBroadcasting (s : DOMManager) : DOMManager :=
  cancel { s with broadcasting := false, trace := s.trace ++ [.stopped] }

def enqueue (clientId : Option ClientId) (fetched : Fetched) (s : DOMManager) : DOMManager :=
  match fetched with
  | .ok (some snapshot) => { s with enqueued := s.enqueued ++ [⟨clientId, .snapshot snapshot⟩] }
  -- there is no snapshot, or the exception is caught and logged
  | .ok none | .error _ => s

def sendSnapshotByClientId (clientId : ClientId) (fetched : Fetched) (s : DOMManager) : DOMManager :=
  s.enqueue (some clientId) fetched

/-- The flag is not looked at. -/
def sendSnapshot (useTestBroadcast : Bool) (fetched : Fetched) (s : DOMManager) : DOMManager :=
  enqueue none fetched { s with trace := s.trace ++ [.sent useTestBroadcast] }

def handle (cmd : Command) (fetched : Fetched) (s : DOMManager) : DOMManager :=
  match cmd with
  | .addOrder .. | .removeOrder .. => s
  | .stopBroadcast => s.stopBroadcasting
  | .sendSnapshotToClient clientId _ => s.sendSnapshotByClientId clientId fetched
  | .startBroadcast terms => if s.broadcasting then s else s.startBroadcasting terms

/-- The handler of a wait. -/
def onTimer (completion : Completion) (fetched : Fetched) (s : DOMManager) : DOMManager :=
  if completion.error || !s.broadcasting then s
  else scheduleNextBroadcast completion.wait (s.sendSnapshot completion.wait.useTestBroadcast fetched)

/-- What the io_context runs, and the expiry of the timer, which queues the
completions of the waits that are pending on it. -/
inductive Event
  | handle (cmd : Command) (fetched : Fetched)
  | expire
  | complete (i : Nat) (fetched : Fetched)

def step (s : DOMManager) : Event → Option DOMManager
  | .handle cmd fetched => some (s.handle cmd fetched)
  | .expire =>
    if s.pending = [] then none
    else some { s with pending := [], completions := s.completions ++ s.pending.map fun wait => ⟨wait, false⟩ }
  | .complete i fetched => do
    let completion ← s.completions[i]?
    return onTimer completion fetched { s with completions := s.completions.eraseIdx i }

/-- Whatever was fetched, only the commands for the broadcaster can change. -/
theorem enqueue_eq (clientId : Option ClientId) (fetched : Fetched) (s : DOMManager) :
    ∃ enqueued, s.enqueue clientId fetched = { s with enqueued } := by
  unfold enqueue
  split
  next snapshot => exact ⟨_, rfl⟩
  next => exact ⟨s.enqueued, rfl⟩
  next => exact ⟨s.enqueued, rfl⟩

/-- What an event can do, with the conditions under which it can happen. -/
inductive Moves (s : DOMManager) : Event → DOMManager → Prop
  | served (cmd : Command) (fetched : Fetched) (enqueued : List BroadcastCommand) : cmd ≠ .stopBroadcast →
      (∀ terms, cmd = .startBroadcast terms → s.broadcasting = true) → Moves s (.handle cmd fetched) { s with enqueued }
  | started (terms : BroadcastTerms) (fetched : Fetched) : s.broadcasting = false →
      Moves s (.handle (.startBroadcast terms) fetched) { s with
        broadcasting := true
        pending := [terms]
        completions := s.completions ++ s.pending.map fun wait => ⟨wait, true⟩
        trace := s.trace ++ [.accepted terms] ++ [.armed terms] }
  | stopped (fetched : Fetched) : Moves s (.handle .stopBroadcast fetched) { s with
      broadcasting := false
      pending := []
      completions := s.completions ++ s.pending.map fun wait => ⟨wait, true⟩
      trace := s.trace ++ [.stopped] }
  | expired : s.pending ≠ [] → Moves s .expire { s with
      pending := []
      completions := s.completions ++ s.pending.map fun wait => ⟨wait, false⟩ }
  | passed (i : Nat) (fetched : Fetched) (completion : Completion) : s.completions[i]? = some completion →
      completion.error = true ∨ s.broadcasting = false →
      Moves s (.complete i fetched) { s with completions := s.completions.eraseIdx i }
  | broadcast (i : Nat) (fetched : Fetched) (wait : BroadcastTerms) (enqueued : List BroadcastCommand) :
      s.completions[i]? = some ⟨wait, false⟩ → s.broadcasting = true → Moves s (.complete i fetched) { s with
        pending := [wait]
        completions := s.completions.eraseIdx i ++ s.pending.map fun wait => ⟨wait, true⟩
        enqueued
        trace := s.trace ++ [.sent wait.useTestBroadcast] ++ [.armed wait] }

theorem moves_of_handle (cmd : Command) (fetched : Fetched) (s : DOMManager) :
    Moves s (.handle cmd fetched) (s.handle cmd fetched) := by
  cases cmd with
  | addOrder clientId isBid order => exact .served _ _ s.enqueued (by simp) (by simp)
  | removeOrder clientId id isBid => exact .served _ _ s.enqueued (by simp) (by simp)
  | stopBroadcast => exact .stopped fetched
  | sendSnapshotToClient clientId useTestBroadcast =>
    obtain ⟨enqueued, same⟩ := enqueue_eq (some clientId) fetched s
    rw [handle, sendSnapshotByClientId, same]
    exact .served _ _ enqueued (by simp) (by simp)
  | startBroadcast terms =>
    cases running : s.broadcasting with
    | true =>
      rw [handle, if_pos running]
      exact .served _ _ s.enqueued (by simp) fun _ _ => running
    | false =>
      have started := Moves.started (s := s) terms fetched running
      simpa [handle, startBroadcasting, scheduleNextBroadcast, cancel, running] using started

theorem moves_of_step {s after : DOMManager} {event : Event} (moved : step s event = some after) :
    Moves s event after := by
  cases event with
  | handle cmd fetched => exact Option.some.inj moved ▸ moves_of_handle cmd fetched s
  | expire =>
    simp only [step] at moved
    split at moved
    next => contradiction
    next waiting => exact Option.some.inj moved ▸ .expired waiting
  | complete i fetched =>
    obtain ⟨completion, at_i, moved⟩ := Option.bind_eq_some_iff.mp moved
    obtain rfl := Option.some.inj moved
    by_cases idle : completion.error = true ∨ s.broadcasting = false
    · have ignored : (completion.error || !s.broadcasting) = true := by simpa using idle
      rw [onTimer, if_pos ignored]
      exact .passed i fetched completion at_i idle
    · obtain ⟨succeeded, running⟩ : completion.error = false ∧ s.broadcasting = true := by simpa using idle
      obtain ⟨wait, error⟩ := completion
      obtain rfl : error = false := succeeded
      obtain ⟨enqueued, same⟩ := enqueue_eq none fetched { s with
        completions := s.completions.eraseIdx i, trace := s.trace ++ [.sent wait.useTestBroadcast] }
      have broadcast := Moves.broadcast i fetched wait enqueued at_i running
      have active : ¬(false || !s.broadcasting) = true := by simp [running]
      rw [onTimer, if_neg active, sendSnapshot, same]
      simpa [scheduleNextBroadcast, cancel, running] using broadcast

end DOMManager

end Stakan
