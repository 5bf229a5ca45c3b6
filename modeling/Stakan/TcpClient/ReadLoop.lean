import Stakan.Interface
import Stakan.Logger

namespace Stakan.TcpClient

/-- The calls of `IClientCallbacks`. -/
inductive Callback
  | onConnected
  | onDisconnected
  | onTopOfBook (snapshot : Snapshot)
  | onMDUpdate (update : MDUpdate)
  | onError (message : String)
  deriving DecidableEq

/-- The background thread of a client with callbacks: the bytes the socket
still has for it, the flag of its loop, and what it has called and logged. -/
structure Reader where
  input : List UInt8
  connected : Bool := true
  calls : List Callback := []
  log : List LogEntry := []
  deriving DecidableEq

/-- Fills a buffer from the socket. It waits, without a result, for bytes
that have not come. -/
def read (size : Nat) (input : List UInt8) : Option (List UInt8 × List UInt8) :=
  if size ≤ input.length then some (input.take size, input.drop size) else none

/-- The body of a message, decoded for its callback; or the exception of the decoder. -/
def readBody {α : Type} (size : Nat) (deserialize : List UInt8 → Except String α) (callback : α → Callback)
    (input : List UInt8) : Option (Except String Callback × List UInt8) := do
  let (data, rest) ← read size input
  return ((deserialize data).map callback, rest)

def processMessage (type : UInt8) (input : List UInt8) : Option (Except String Callback × List UInt8) :=
  if type = MessageType.snapshot.code then readBody sizeofSnapshot Snapshot.deserialize .onTopOfBook input
  else if type = MessageType.mdUpdate.code then readBody sizeofMDUpdate MDUpdate.deserialize .onMDUpdate input
  else return (.error "Failed to read message type", input)

/-- One turn of the loop; no state follows while it waits and after it ended. -/
def readMessage (reader : Reader) : Option Reader :=
  match reader.connected, reader.input with
  | true, type :: body => do
    let (result, rest) ← processMessage type body
    match result with
    | .ok call => return { reader with input := rest, calls := reader.calls ++ [call] }
    | .error what => return {
        input := rest
        connected := false
        calls := reader.calls ++ [.onDisconnected]
        log := reader.log ++ [⟨.error, "Snapshot read error: " ++ what⟩] }
  | _, _ => none

theorem read_append {data : List UInt8} {size : Nat} (whole : data.length = size) (rest : List UInt8) :
    read size (data ++ rest) = some (data, rest) := by
  subst whole
  simp [read]

theorem read_some {size : Nat} {input data rest : List UInt8} (taken : read size input = some (data, rest)) :
    data.length = size ∧ rest.length ≤ input.length := by
  unfold read at taken
  split at taken
  next enough =>
    obtain ⟨rfl, rfl⟩ := Prod.mk.inj (Option.some.inj taken)
    simp only [List.length_take, List.length_drop]
    omega
  next => contradiction

/-- A buffer of the size of the structure is one byte short for its deserializer. -/
theorem snapshot_body_refused {data : List UInt8} (size : data.length = sizeofSnapshot) :
    Snapshot.deserialize data = .error incorrectDataSize := if_pos (by rw [size, kByteForMsgType]; omega)

theorem mdUpdate_body_refused {data : List UInt8} (size : data.length = sizeofMDUpdate) :
    MDUpdate.deserialize data = .error incorrectDataSize := if_pos (by rw [size, kByteForMsgType]; omega)

theorem readBody_append {α : Type} {size : Nat} {deserialize : List UInt8 → Except String α} {what : String}
    {data : List UInt8} (refused : deserialize data = .error what) (whole : data.length = size)
    (callback : α → Callback) (rest : List UInt8) :
    readBody size deserialize callback (data ++ rest) = some (.error what, rest) := by
  simp [readBody, read_append whole, refused, Except.map]

theorem readBody_throws {α : Type} {size : Nat} {deserialize : List UInt8 → Except String α} {what : String}
    (refuses : ∀ {data}, data.length = size → deserialize data = .error what) {callback : α → Callback}
    {input rest : List UInt8} {result : Except String Callback}
    (processed : readBody size deserialize callback input = some (result, rest)) :
    (∃ what, result = .error what) ∧ rest.length ≤ input.length := by
  obtain ⟨⟨data, after⟩, taken, same⟩ := Option.bind_eq_some_iff.mp processed
  obtain ⟨rfl, rfl⟩ := Prod.mk.inj (Option.some.inj same)
  obtain ⟨size, shorter⟩ := read_some taken
  exact ⟨⟨what, by rw [refuses size]; rfl⟩, shorter⟩

/-- Every message ends in an exception, so no callback is given any data. -/
theorem processMessage_throws {type : UInt8} {input rest : List UInt8} {result : Except String Callback}
    (processed : processMessage type input = some (result, rest)) :
    (∃ what, result = .error what) ∧ rest.length ≤ input.length := by
  unfold processMessage at processed
  split at processed
  next => exact readBody_throws snapshot_body_refused processed
  next =>
    split at processed
    next => exact readBody_throws mdUpdate_body_refused processed
    next =>
      obtain ⟨rfl, rfl⟩ := Prod.mk.inj (Option.some.inj processed)
      exact ⟨⟨_, rfl⟩, le_rfl⟩

/-- What one turn of the loop does: it gives up. -/
theorem readMessage_fails {reader next : Reader} (moved : readMessage reader = some next) :
    ∃ type body what rest, reader.input = type :: body ∧ processMessage type body = some (.error what, rest) ∧
      next = { input := rest, connected := false, calls := reader.calls ++ [.onDisconnected]
               log := reader.log ++ [⟨.error, "Snapshot read error: " ++ what⟩] } := by
  unfold readMessage at moved
  split at moved
  next type body _ bytes =>
    obtain ⟨⟨result, rest⟩, processed, after⟩ := Option.bind_eq_some_iff.mp moved
    obtain ⟨⟨what, rfl⟩, _⟩ := processMessage_throws processed
    exact ⟨type, body, what, rest, bytes, processed, (Option.some.inj after).symm⟩
  next => contradiction

theorem readMessage_shortens {reader next : Reader} (moved : readMessage reader = some next) :
    next.input.length < reader.input.length := by
  obtain ⟨type, body, what, rest, bytes, processed, rfl⟩ := readMessage_fails moved
  have shorter := (processMessage_throws processed).2
  rw [bytes, List.length_cons]
  exact Nat.lt_succ_of_le shorter

/-- The loop of the background thread, until it ends or waits for more bytes. -/
def readLoop (reader : Reader) : Reader :=
  match _ : readMessage reader with
  | some next => readLoop next
  | none => reader
termination_by reader.input.length
decreasing_by exact readMessage_shortens (by assumption)

theorem readLoop_waits {reader : Reader} (waits : readMessage reader = none) : readLoop reader = reader := by
  rw [readLoop]
  split
  next moved => rw [waits] at moved; contradiction
  next => rfl

/-- The loop takes one turn at most. -/
theorem readLoop_eq {reader next : Reader} (moved : readMessage reader = some next) : readLoop reader = next := by
  obtain ⟨_, _, _, _, _, _, rfl⟩ := readMessage_fails moved
  rw [readLoop]
  split
  next other => rw [moved] at other; cases Option.some.inj other; exact readLoop_waits rfl
  next waits => rw [moved] at waits; contradiction

/-- The messages of the market data stream. -/
inductive Message
  | snapshot (snapshot : Snapshot)
  | mdUpdate (update : MDUpdate)

def Message.serialize : Message → List UInt8
  | .snapshot s => s.serialize
  | .mdUpdate u => u.serialize

def Message.callback : Message → Callback
  | .snapshot s => .onTopOfBook s
  | .mdUpdate u => .onMDUpdate u

/-- The loop is to hand every message on, in order, and to leave no byte. -/
structure Delivers (messages : List Message) (last : Reader) : Prop where
  calls : last.calls = messages.map Message.callback
  quiet : last.log = []
  consumed : last.input = []

/-- A message is taken off the stream, and the loop ends with an error. -/
theorem readMessage_message (message : Message) (rest : List UInt8) :
    readMessage { input := message.serialize ++ rest } = some {
      input := rest
      connected := false
      calls := [.onDisconnected]
      log := [⟨.error, "Snapshot read error: " ++ incorrectDataSize⟩] } := by
  cases message with
  | snapshot s =>
    obtain ⟨data, serialized⟩ : ∃ data, s.serialize = MessageType.snapshot.code :: data := ⟨_, rfl⟩
    have size : data.length = sizeofSnapshot := by
      have whole := s.serialize_length
      rw [serialized, List.length_cons, kByteForMsgType] at whole
      omega
    have body := readBody_append (snapshot_body_refused size) size .onTopOfBook rest
    simp only [readMessage, Message.serialize, serialized, List.cons_append, processMessage, if_true, body]
    rfl
  | mdUpdate u =>
    obtain ⟨data, serialized⟩ : ∃ data, u.serialize = MessageType.mdUpdate.code :: data := ⟨_, rfl⟩
    have size : data.length = sizeofMDUpdate := by
      have whole := u.serialize_length
      rw [serialized, List.length_cons, kByteForMsgType] at whole
      omega
    have body := readBody_append (mdUpdate_body_refused size) size .onMDUpdate rest
    have other : MessageType.mdUpdate.code ≠ MessageType.snapshot.code := by decide
    simp only [readMessage, Message.serialize, serialized, List.cons_append, processMessage, if_neg other, if_true, body]
    rfl

/-- The read loop delivers a list of messages only when there is none. -/
theorem delivers_iff (messages : List Message) :
    Delivers messages (readLoop { input := messages.flatMap Message.serialize }) ↔ messages = [] := by
  cases messages with
  | nil =>
    have waits : readLoop { input := [] } = { input := [] } := readLoop_waits rfl
    simp only [List.flatMap_nil, waits, iff_true]
    exact ⟨rfl, rfl, rfl⟩
  | cons message messages =>
    rw [List.flatMap_cons, readLoop_eq (readMessage_message message _)]
    simp only [reduceCtorEq, iff_false]
    intro delivers
    have calls := delivers.calls
    cases message <;> simp [Message.callback] at calls

/-- One update on the stream is lost. -/
theorem update_not_delivered :
    ¬∀ messages : List Message, Delivers messages (readLoop { input := messages.flatMap Message.serialize }) := by
  intro claim
  have quiet := (claim [.mdUpdate ⟨1, 2, 3, 4, 5, 6⟩]).quiet
  rw [List.flatMap_cons, readLoop_eq (readMessage_message _ _)] at quiet
  contradiction

end Stakan.TcpClient
