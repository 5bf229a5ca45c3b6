import Mathlib.Data.List.Range
import Stakan.Interface
import Stakan.Library.LabelledRun

namespace Stakan

/-- A message that the session owns, at its address. -/
structure Payload where
  addr : Nat
  bytes : List UInt8
  deriving DecidableEq

/-- A session on its strand. The fields up to `disconnected` are those of the
source; those after it are asio's part: whether the session has been started,
whether a read is outstanding, and the writes that are. The last ones are the
history: the messages accepted and handed to `async_write`, the frames given
to `on_data_` and the number of calls of `on_disconnect_`. -/
structure Session where
  socketOpen : Bool
  readBuffer : List UInt8 := []
  messagesQueue : List Payload := []
  writeInProgress : Bool := false
  disconnected : Bool := false
  started : Bool := false
  reading : Bool := false
  outstanding : List Payload := []
  accepted : List Payload := []
  handed : List Payload := []
  frames : List (List UInt8) := []
  disconnects : Nat := 0
  deriving DecidableEq

namespace Session

def notifyDisconnectOnce (s : Session) : Session :=
  if s.disconnected then s
  else { s with
    disconnected := true
    writeInProgress := false
    messagesQueue := []
    disconnects := s.disconnects + 1 }

def read (s : Session) : Session :=
  if !s.socketOpen then s.notifyDisconnectOnce else { s with reading := true }

/-- The front of the queue goes to `async_write` and stays in the queue. -/
def write (s : Session) : Session :=
  if !s.socketOpen then notifyDisconnectOnce { s with writeInProgress := false }
  else match s.messagesQueue with
    | [] => { s with writeInProgress := false }
    | chunk :: _ => { s with outstanding := s.outstanding ++ [chunk], handed := s.handed ++ [chunk] }

def sendMsg (message : List UInt8) (s : Session) : Session :=
  if s.disconnected || !s.socketOpen then s
  else
    let payload : Payload := ⟨s.accepted.length, message⟩
    let queued := { s with messagesQueue := s.messagesQueue ++ [payload], accepted := s.accepted ++ [payload] }
    if s.writeInProgress then queued else write { queued with writeInProgress := true }

def stop (s : Session) : Session :=
  if s.disconnected then s else { s with disconnected := true, socketOpen := false }

def processWrite (error : Bool) (s : Session) : Session :=
  if error then notifyDisconnectOnce { s with writeInProgress := false }
  else
    let popped := { s with messagesQueue := s.messagesQueue.tail }
    if popped.messagesQueue.isEmpty then { popped with writeInProgress := false } else popped.write

/-- What `on_data_` does with the session, within the same handler. -/
inductive Request
  | sendMsg (message : List UInt8)
  | stop

def perform (s : Session) : Request → Session
  | .sendMsg message => s.sendMsg message
  | .stop => s.stop

/-- A run of `on_data_`: its calls on the session, and whether it throws. -/
structure OnData where
  requests : List Request := []
  throws : Bool := false

def processRead (error : Bool) (bytesTransferred : Nat) (onData : OnData) (s : Session) : Session :=
  if error then s.notifyDisconnectOnce
  else
    let framed := { s with
      readBuffer := s.readBuffer.drop bytesTransferred
      frames := s.frames ++ [s.readBuffer.take bytesTransferred] }
    let handled := onData.requests.foldl perform framed
    if onData.throws then handled else handled.read

/-- What the strand runs, and the bytes that arrive for an outstanding read
while its buffer has no line end. -/
inductive Event
  | start
  | sendMsg (message : List UInt8)
  | stop
  | receive (bytes : List UInt8)
  | readDone (onData : OnData)
  | readFailed
  | writeDone (i : Nat)
  | writeFailed (i : Nat)

def step (s : Session) : Event → Option Session
  | .start => if s.started then none else some (read { s with started := true })
  | .sendMsg message => some (s.sendMsg message)
  | .stop => some s.stop
  | .receive bytes =>
    if s.reading ∧ byte '\n' ∉ s.readBuffer then some { s with readBuffer := s.readBuffer ++ bytes } else none
  | .readDone onData =>
    if s.reading ∧ byte '\n' ∈ s.readBuffer then
      some (processRead false (s.readBuffer.idxOf (byte '\n') + 1) onData { s with reading := false })
    else none
  | .readFailed => if s.reading then some (processRead true 0 {} { s with reading := false }) else none
  | .writeDone i =>
    if i < s.outstanding.length then some (processWrite false { s with outstanding := s.outstanding.eraseIdx i })
    else none
  | .writeFailed i =>
    if i < s.outstanding.length then some (processWrite true { s with outstanding := s.outstanding.eraseIdx i })
    else none

/-- What an event can do, with the conditions under which it can happen. -/
inductive Moves (s : Session) : Event → Session → Prop
  | start : s.started = false → Moves s .start (read { s with started := true })
  | sendMsg (message : List UInt8) : Moves s (.sendMsg message) (s.sendMsg message)
  | stop : Moves s .stop s.stop
  | receive (bytes : List UInt8) : s.reading = true → byte '\n' ∉ s.readBuffer →
      Moves s (.receive bytes) { s with readBuffer := s.readBuffer ++ bytes }
  | readDone (onData : OnData) : s.reading = true → byte '\n' ∈ s.readBuffer →
      Moves s (.readDone onData)
        (processRead false (s.readBuffer.idxOf (byte '\n') + 1) onData { s with reading := false })
  | readFailed : s.reading = true → Moves s .readFailed (processRead true 0 {} { s with reading := false })
  | writeDone (i : Nat) : i < s.outstanding.length →
      Moves s (.writeDone i) (processWrite false { s with outstanding := s.outstanding.eraseIdx i })
  | writeFailed (i : Nat) : i < s.outstanding.length →
      Moves s (.writeFailed i) (processWrite true { s with outstanding := s.outstanding.eraseIdx i })

theorem moves_of_step {s after : Session} {event : Event} (moved : step s event = some after) :
    Moves s event after := by
  cases event with
  | sendMsg message => exact Option.some.inj moved ▸ .sendMsg message
  | stop => exact Option.some.inj moved ▸ .stop
  | start =>
    simp only [step] at moved
    split at moved
    next => contradiction
    next fresh => exact Option.some.inj moved ▸ .start (by simpa using fresh)
  | receive bytes =>
    simp only [step] at moved
    split at moved
    next waiting => exact Option.some.inj moved ▸ .receive bytes waiting.1 waiting.2
    next => contradiction
  | readDone onData =>
    simp only [step] at moved
    split at moved
    next line => exact Option.some.inj moved ▸ .readDone onData line.1 line.2
    next => contradiction
  | readFailed =>
    simp only [step] at moved
    split at moved
    next reading => exact Option.some.inj moved ▸ .readFailed reading
    next => contradiction
  | writeDone i =>
    simp only [step] at moved
    split at moved
    next within => exact Option.some.inj moved ▸ .writeDone i within
    next => contradiction
  | writeFailed i =>
    simp only [step] at moved
    split at moved
    next within => exact Option.some.inj moved ▸ .writeFailed i within
    next => contradiction

end Session

end Stakan
