import Mathlib.Data.Finset.Basic
import Stakan.TcpClient.Lifecycle
import Stakan.TcpClient.Subscribe

namespace Stakan.ClientLib
open TcpClient (Lifecycle Request)

inductive ConnectionState
  | error
  | connected
  | disconnected
  deriving DecidableEq

/-- The calls of `ClientCallbacks`, and the calls that have returned: each
`Connect` in which the TCP client has connected, and each `Disconnect`. -/
inductive Notice
  | onConnected
  | onDisconnected
  | onError (state : ConnectionState) (message : List UInt8)
  | connected
  | disconnected
  deriving DecidableEq

namespace CallbacksAdapter

def onConnected : Notice := .onConnected

def onDisconnected : Notice := .onDisconnected

def onError (message : List UInt8) : Notice := .onError .error message

end CallbacksAdapter

/-- The client of the library on top of the TCP client. -/
structure OrderBookClient where
  tickers : Finset (List UInt8) := ∅
  client : Lifecycle := {}
  state : ConnectionState := .disconnected
  history : List Notice := []
  deriving DecidableEq

namespace OrderBookClient

def notify (s : OrderBookClient) (notice : Notice) : OrderBookClient :=
  { s with history := s.history ++ [notice] }

/-- `Connect`, once that of the TCP client has returned. -/
def connect (s : OrderBookClient) (returned : Bool) : OrderBookClient :=
  if returned then { s with state := .connected }.notify .connected else s

/-- `Disconnect`, once that of the TCP client has returned. -/
def disconnect (s : OrderBookClient) : OrderBookClient := { s with state := .disconnected }.notify .disconnected

/-- `Subscribe`, once that of the TCP client has returned. -/
def subscribe (s : OrderBookClient) (ticker : List UInt8) (returned : Bool) : OrderBookClient :=
  if returned then { s with tickers := insert ticker s.tickers } else s

/-- `Unsubscribe`, once that of the TCP client has returned. -/
def unsubscribe (s : OrderBookClient) (ticker : List UInt8) (returned : Bool) : OrderBookClient :=
  if returned then { s with tickers := s.tickers.erase ticker } else s

def isConnected (s : OrderBookClient) : Bool := s.client.connected

/-- The TCP client moves, or writes a request. `what` is the text of the
exception that ends the call or the write. -/
inductive Event
  | client (event : Lifecycle.Event) (what : List UInt8)
  | request (request : Request) (what : Option (List UInt8))

def Enabled (s : OrderBookClient) : Event → Prop
  | .client event _ => s.client.Enabled event
  | .request _ _ => s.client.caller = .idle

instance (s : OrderBookClient) (event : Event) : Decidable (s.Enabled event) := by
  cases event <;> unfold Enabled <;> infer_instance

/-- The part of `Subscribe` and of `Unsubscribe` that is the TCP client's. -/
def write (s : OrderBookClient) (what : Option (List UInt8)) : OrderBookClient × Bool :=
  if s.client.connected then
    match what with
    | none => (s, true)
    | some what => (s.notify (CallbacksAdapter.onError what), false)
  else (s, false)

/-- A call of the TCP client returns with the event that leaves its owner
idle, and `Connect` and `Disconnect` do the rest in the same event. Nothing of
it is seen by the background thread. -/
def perform (s : OrderBookClient) : Event → OrderBookClient
  | .client event what =>
    let moved := { s with client := s.client.perform event }
    match event with
    | .connect => if s.client.connected then moved.connect true else moved
    | .connectFails _ => (moved.notify (CallbacksAdapter.onError what)).connect false
    | .announce => moved.notify CallbacksAdapter.onConnected
    | .spawn => if s.client.joinable then moved else moved.connect true
    | .disconnect => if s.client.connected then moved else moved.disconnect
    | .report =>
      let told := moved.notify CallbacksAdapter.onDisconnected
      if s.client.destroying then told else told.disconnect
    | .readerReport => moved.notify CallbacksAdapter.onDisconnected
    | _ => moved
  | .request (.subscribe ticker) what => (s.write what).1.subscribe ticker (s.write what).2
  | .request (.unsubscribe ticker) what => (s.write what).1.unsubscribe ticker (s.write what).2

def step (s : OrderBookClient) (event : Event) : Option OrderBookClient :=
  if s.client.terminated = false ∧ s.Enabled event then some (s.perform event) else none

theorem step_eq_some {s after : OrderBookClient} {event : Event} :
    step s event = some after ↔ s.client.terminated = false ∧ s.Enabled event ∧ s.perform event = after := by
  rw [step, Option.ite_none_right_eq_some, Option.some_inj, and_assoc]

@[simp] theorem notify_history (s : OrderBookClient) (notice : Notice) :
    (s.notify notice).history = s.history ++ [notice] := rfl

/-- The TCP client moves as it does on its own. -/
theorem perform_client (s : OrderBookClient) (event : Lifecycle.Event) (what : List UInt8) :
    (s.perform (.client event what)).client = s.client.perform event := by
  cases event with
  | connect | disconnect | spawn | report =>
    rw [perform]
    split <;> rfl
  | _ => rfl

/-- Without a connection nothing is written. -/
theorem write_of_written {s : OrderBookClient} {what : Option (List UInt8)}
    (written : s.client.connected = true → what = none) : (s.write what).1 = s := by
  unfold write
  split
  next on => rw [written on]
  next => rfl

theorem write_of_raised {s : OrderBookClient} {what : List UInt8} (on : s.client.connected = true) :
    s.write (some what) = (s.notify (CallbacksAdapter.onError what), false) :=
  if_pos on

/-- A request leaves the connection and the state alone. -/
theorem perform_request (s : OrderBookClient) (request : Request) (what : Option (List UInt8)) :
    (s.perform (.request request what)).client = s.client ∧
      (s.perform (.request request what)).state = s.state ∧
      (s.perform (.request request what)).history = (s.write what).1.history := by
  have wrote : (s.write what).1.client = s.client ∧ (s.write what).1.state = s.state := by
    unfold write
    split
    next => cases what <;> exact ⟨rfl, rfl⟩
    next => exact ⟨rfl, rfl⟩
  cases request with
  | subscribe ticker =>
    rw [perform, subscribe]
    split <;> exact ⟨wrote.1, wrote.2, rfl⟩
  | unsubscribe ticker =>
    rw [perform, unsubscribe]
    split <;> exact ⟨wrote.1, wrote.2, rfl⟩

end OrderBookClient

end Stakan.ClientLib
