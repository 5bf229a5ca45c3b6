import Stakan.TCPServer.Exchange
import Stakan.TCPServer.Grammar
import Stakan.TcpClient.ReadLoop

namespace Stakan.TcpClient
open TCPServer (frames serve replyTo errResponse parseClientId)

/-- The calls of a client that write to its connection. -/
inductive Request
  | subscribe (symbol : List UInt8)
  | unsubscribe (symbol : List UInt8)

/-- The line that is written. The symbol may be any string. -/
def Request.line : Request → List UInt8
  | .subscribe symbol => bytesOf "SUBSCRIBE " ++ symbol ++ bytesOf "\n"
  | .unsubscribe symbol => bytesOf "UNSUBSCRIBE " ++ symbol ++ bytesOf "\n"

/-- The server, which has the beginning of a line in its buffer, accepts the
request, and the client reads the reply without being disconnected. -/
structure Understood (request : Request) (buffered : List UInt8) (session : SessionAddr) (clients : ClientList) :
    Prop where
  accepted : .sendMsg session errResponse ∉ serve session (frames (buffered ++ request.line)) clients
  decoded : (readLoop { input := replyTo session (serve session (frames (buffered ++ request.line)) clients) }).connected

/-- The letter that every request has and no HELLO. -/
theorem parseClientId_of_mem {frame : List UInt8} (member : byte 'S' ∈ frame) : parseClientId frame = .ok 0 := by
  obtain ⟨c, parsed⟩ := TCPServer.parseClientId_ok frame
  by_cases valid : c = 0
  · rw [parsed, valid]
  · obtain ⟨blanks, digits, ending, ⟨whole, spaces, numbers, trailing⟩, _⟩ := TCPServer.parseClientId_shape parsed valid
    rw [whole] at member
    simp only [List.mem_append, List.mem_cons] at member
    rcases member with blank | hello | space | digit | last
    · exact absurd (spaces _ blank) (by decide)
    · exact absurd hello (by decide)
    · exact absurd space (by decide)
    · exact absurd (numbers _ digit) (by unfold TCPServer.Digit; decide)
    · exact absurd (trailing _ last) (by unfold TCPServer.Trailing; decide)

/-- The first line that the server finds in its buffer has the letter. -/
theorem frames_request (request : Request) {buffered : List UInt8} (noEnd : byte '\n' ∉ buffered) :
    ∃ frame later, frames (buffered ++ request.line) = frame :: later ∧ byte 'S' ∈ frame := by
  have first (word symbol : List UInt8) (noEndWord : byte '\n' ∉ word) (letter : byte 'S' ∈ word) :
      ∃ frame later, frames (buffered ++ (word ++ symbol ++ bytesOf "\n")) = frame :: later ∧ byte 'S' ∈ frame := by
    have none : byte '\n' ∉ buffered ++ word := by
      rw [List.mem_append]
      exact not_or.mpr ⟨noEnd, noEndWord⟩
    have line : byte '\n' ∈ symbol ++ bytesOf "\n" := List.mem_append_right _ (by decide)
    obtain ⟨more, later, cut⟩ := TCPServer.frames_append none line
    rw [List.append_assoc, List.append_assoc] at cut
    refine ⟨_, later, by rw [List.append_assoc]; exact cut, ?_⟩
    simp [letter]
  cases request with
  | subscribe symbol => exact first (bytesOf "SUBSCRIBE ") symbol (by decide) (by decide)
  | unsubscribe symbol => exact first (bytesOf "UNSUBSCRIBE ") symbol (by decide) (by decide)

/-- A reply in words ends the read loop at its first letter. -/
theorem readLoop_errResponse (rest : List UInt8) :
    (readLoop { input := errResponse ++ rest }).connected = false := by
  obtain ⟨text, response⟩ : ∃ text, errResponse = byte 'E' :: text := ⟨_, rfl⟩
  have moved : readMessage { input := errResponse ++ rest } = some {
      input := text ++ rest
      connected := false
      calls := [.onDisconnected]
      log := [⟨.error, "Snapshot read error: " ++ "Failed to read message type"⟩] } := by
    rw [response]
    rfl
  rw [readLoop_eq moved]

theorem serve_request (request : Request) {buffered : List UInt8} (noEnd : byte '\n' ∉ buffered)
    (session : SessionAddr) (clients : ClientList) :
    ∃ later, serve session (frames (buffered ++ request.line)) clients = .sendMsg session errResponse :: later := by
  obtain ⟨frame, later, cut, letter⟩ := frames_request request noEnd
  rw [cut, TCPServer.serve_refused (parseClientId_of_mem letter)]
  exact ⟨_, rfl⟩

/-- No request is understood: the server refuses it, and the client ends its
loop over the refusal. -/
theorem request_not_understood (request : Request) (buffered : List UInt8) (noEnd : byte '\n' ∉ buffered)
    (session : SessionAddr) (clients : ClientList) :
    ¬Understood request buffered session clients ∧
      (readLoop { input := replyTo session (serve session (frames (buffered ++ request.line)) clients) }).connected =
        false := by
  obtain ⟨later, served⟩ := serve_request request noEnd session clients
  constructor
  · intro understood
    have accepted := understood.accepted
    rw [served] at accepted
    exact accepted List.mem_cons_self
  · have reply : replyTo session (.sendMsg session errResponse :: later) = errResponse ++ replyTo session later := by
      simp [replyTo]
    rw [served, reply, readLoop_errResponse]

/-- The client list owns the session, as that of client 5, and its first request is a subscription. -/
theorem first_subscription_not_understood :
    ¬Understood (.subscribe (bytesOf "EURUSD")) [] 7 (ClientList.addSession 5 (some 7) {}) ∧
      (readLoop { input := replyTo 7 (serve 7 (frames ([] ++ (Request.subscribe (bytesOf "EURUSD")).line))
        (ClientList.addSession 5 (some 7) {})) }).connected = false :=
  request_not_understood (.subscribe (bytesOf "EURUSD")) [] (by simp) 7 (ClientList.addSession 5 (some 7) {})

theorem subscription_refused : ¬∀ request buffered session clients, byte '\n' ∉ buffered →
    Understood request buffered session clients := by
  intro claim
  let clients : ClientList := ClientList.addSession 5 (some 7) {}
  obtain ⟨later, served⟩ := serve_request (.subscribe (bytesOf "EURUSD")) (List.not_mem_nil (a := byte '\n')) 7 clients
  have accepted := (claim (.subscribe (bytesOf "EURUSD")) [] 7 clients (by simp)).accepted
  rw [served] at accepted
  exact accepted List.mem_cons_self

end Stakan.TcpClient
