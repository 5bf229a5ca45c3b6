import Stakan.Broadcaster.CommandQueue
import Stakan.ClientList.Basic

namespace Stakan

namespace BroadcastCommand

/-- `get_data` for `common::Snapshot`. -/
def getSnapshot (cmd : BroadcastCommand) : Option Snapshot :=
  match cmd.data with
  | .snapshot data => some data
  | .mdUpdate _ => none

/-- `get_data` for `common::MDUpdate`, which is not the type of the update that the queue carries. -/
def getMDUpdate (cmd : BroadcastCommand) : Option MDUpdate :=
  match cmd.data with
  | .snapshot _ => none
  | .mdUpdate _ => none

end BroadcastCommand

/-- A call on a session, with the command whose handler made it. -/
structure Delivery where
  origin : CommandPtr
  call : SessionCall

/-- The broadcaster with the client list: the queue, the command that the
worker has popped, the handlers that wait on the io_context, and the calls
made so far. `standIn` keeps, for each command pushed, the address of the
command that stands for it: its own, until a later one clears it away.
`undefined` says that the program has met undefined behaviour. -/
structure Broadcaster where
  clients : ClientList
  trace : CommandQueue.Trace := {}
  held : Option CommandPtr := none
  posted : List CommandPtr := []
  delivered : List Delivery := []
  standIn : Nat → Nat := id
  undefined : Bool := false

namespace Broadcaster

def handleSendSnapshotTo (id : SessionId) (s : Snapshot) (clients : ClientList) : Except Failure (List SessionCall) :=
  clients.broadcastToCertain id s.serialize

def handleSendSnapshotAll (s : Snapshot) (clients : ClientList) : Except Failure (List SessionCall) :=
  clients.broadcastToSubscribed s.serialize

def handleSendMDUpdate (u : MDUpdate) (clients : ClientList) : Except Failure (List SessionCall) :=
  clients.broadcastToSubscribed u.serialize

/-- The handler that `run` posts for a command. An optional without a value
must not be followed. -/
def handler (cmd : BroadcastCommand) (clients : ClientList) : Except Failure (List SessionCall) :=
  match cmd.type with
  | .sendSnapshot => match cmd.clientId, cmd.getSnapshot with
    | some id, some s => handleSendSnapshotTo id s clients
    | none, some s => handleSendSnapshotAll s clients
    | _, none => .error .undefinedBehaviour
  | .sendMDUpdate => match cmd.getMDUpdate with
    | some u => handleSendMDUpdate u clients
    | none => .error .undefinedBehaviour

/-- What can happen: a producer enqueues, the worker pops or posts, the
io_context runs one of the handlers posted, someone calls the client list. -/
inductive Event
  | enqueue (cmd : BroadcastCommand)
  | pop
  | post
  | execute (i : Nat)
  | clientCall (op : ClientListOp)

/-- The stand-ins after a push: a new command stands for itself, and one for
all clients also for what it clears. -/
def standInAfter (state : Broadcaster) (cmd : BroadcastCommand) (addr : Nat) : Nat :=
  if addr = state.trace.pushed.length then addr
  else if cmd.clientId = none ∧ state.standIn addr ∈ state.trace.queue.map CommandPtr.addr then
    state.trace.pushed.length
  else state.standIn addr

/-- What an event does, or nothing if the threads cannot make it now. An
exception that leaves a handler is taken as consumed, and the io_context as
running on. In the program it ends the process, since the thread that runs the
io_context does not catch it: there are runs here that the program does not
have, and none of its own is missing. Undefined behaviour is not an event that
cannot be made: it leads to a state that says so. -/
def perform (state : Broadcaster) : Event → Option Broadcaster
  | .enqueue cmd => do
    let trace ← CommandQueue.step state.trace (.push cmd)
    return { state with trace, standIn := state.standInAfter cmd }
  | .pop =>
    if state.held.isSome then none
    else do
      let (cmd, _) ← CommandQueue.pop state.trace.queue
      let trace ← CommandQueue.step state.trace .pop
      return { state with trace, held := some cmd }
  | .post => do
    let cmd ← state.held
    return { state with held := none, posted := state.posted ++ [cmd] }
  | .execute i => do
    let cmd ← state.posted[i]?
    match handler cmd.cmd state.clients with
    | .ok calls => return {
        state with
        posted := state.posted.eraseIdx i
        delivered := state.delivered ++ calls.map fun call => ⟨cmd, call⟩ }
    -- the handler never comes to its end
    | .error .undefinedBehaviour => return { state with undefined := true }
    | .error _ => return { state with posted := state.posted.eraseIdx i }
  | .clientCall op => match state.clients.step op with
    | some clients => some { state with clients }
    | none => some { state with undefined := true }

/-- A step of the program. Once the behaviour is undefined the run is at its
end; an exception that leaves a handler does not end it, see `perform`. -/
def step (state : Broadcaster) (event : Event) : Option Broadcaster :=
  if state.undefined then none else state.perform event

theorem step_of_defined {state : Broadcaster} (defined : state.undefined = false) (event : Event) :
    step state event = state.perform event := by
  simp [step, defined]

theorem perform_of_step {state after : Broadcaster} {event : Event} (moved : step state event = some after) :
    state.undefined = false ∧ state.perform event = some after := by
  simpa [step] using moved

theorem step_enqueue {state after : Broadcaster} {cmd : BroadcastCommand}
    (moved : step state (.enqueue cmd) = some after) :
    after = { state with
      trace := { state.trace with
        queue := CommandQueue.push (state.trace.next cmd) state.trace.queue
        pushed := state.trace.pushed ++ [state.trace.next cmd] }
      standIn := state.standInAfter cmd } :=
  (Option.some.inj (perform_of_step moved).2).symm

theorem step_pop {state after : Broadcaster} (moved : step state .pop = some after) :
    ∃ front rest, state.held = none ∧ state.trace.queue = front :: rest ∧
      after = { state with
        trace := { state.trace with queue := rest, popped := state.trace.popped ++ [front] }, held := some front } := by
  have performed := (perform_of_step moved).2
  simp only [perform] at performed
  split at performed
  next => contradiction
  next idle =>
    cases queue : state.trace.queue with
    | nil => simp [queue, CommandQueue.pop] at performed
    | cons front rest =>
      refine ⟨front, rest, by simpa using idle, rfl, ?_⟩
      simpa [queue, CommandQueue.pop, CommandQueue.step] using performed.symm

theorem step_post {state after : Broadcaster} (moved : step state .post = some after) :
    ∃ cmd, state.held = some cmd ∧ after = { state with held := none, posted := state.posted ++ [cmd] } := by
  obtain ⟨cmd, held, performed⟩ := Option.bind_eq_some_iff.mp (perform_of_step moved).2
  exact ⟨cmd, held, (Option.some.inj performed).symm⟩

/-- A call on the client list touches nothing else. -/
theorem step_clientCall {state after : Broadcaster} {op : ClientListOp}
    (moved : step state (.clientCall op) = some after) :
    ∃ clients undefined, after = { state with clients, undefined } := by
  have performed := (perform_of_step moved).2
  simp only [perform] at performed
  split at performed
  next clients _ => exact ⟨clients, state.undefined, (Option.some.inj performed).symm⟩
  next => exact ⟨state.clients, true, (Option.some.inj performed).symm⟩

theorem step_execute_ok {state : Broadcaster} {i : Nat} {cmd : CommandPtr} {calls : List SessionCall}
    (defined : state.undefined = false) (at_i : state.posted[i]? = some cmd)
    (sent : handler cmd.cmd state.clients = .ok calls) :
    step state (.execute i) = some { state with
      posted := state.posted.eraseIdx i, delivered := state.delivered ++ calls.map fun call => ⟨cmd, call⟩ } := by
  simp [step_of_defined defined, perform, at_i, sent]

/-- A handler returns, or lets an exception escape, or does not come to its end. -/
theorem step_execute {state after : Broadcaster} {i : Nat} (moved : step state (.execute i) = some after) :
    ∃ cmd, state.posted[i]? = some cmd ∧
      ((∃ calls, handler cmd.cmd state.clients = .ok calls ∧
          after = { state with
            posted := state.posted.eraseIdx i
            delivered := state.delivered ++ calls.map fun call => ⟨cmd, call⟩ }) ∨
        (∃ failure, handler cmd.cmd state.clients = .error failure ∧ failure ≠ .undefinedBehaviour ∧
          after = { state with posted := state.posted.eraseIdx i }) ∨
        handler cmd.cmd state.clients = .error .undefinedBehaviour ∧ after = { state with undefined := true }) := by
  obtain ⟨cmd, at_i, performed⟩ := Option.bind_eq_some_iff.mp (perform_of_step moved).2
  refine ⟨cmd, at_i, ?_⟩
  split at performed
  next calls sent => exact Or.inl ⟨calls, sent, (Option.some.inj performed).symm⟩
  next failed => exact Or.inr (Or.inr ⟨failed, (Option.some.inj performed).symm⟩)
  next failure escapes failed => exact Or.inr (Or.inl ⟨failure, failed, escapes, (Option.some.inj performed).symm⟩)

end Broadcaster

end Stakan
