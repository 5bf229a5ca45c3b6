import Stakan.TCPServer.HandleMessage
import Stakan.TCPServer.SessionSilence

namespace Stakan.TCPServer

/-- What the handler of frames is given for the bytes in the buffer: each
line with its end. The rest stays in the buffer. -/
def frames (buffer : List UInt8) : List (List UInt8) :=
  if _ : byte '\n' ∈ buffer then
    buffer.take (buffer.idxOf (byte '\n') + 1) :: frames (buffer.drop (buffer.idxOf (byte '\n') + 1))
  else []
termination_by buffer.length
decreasing_by
  have positive := List.length_pos_of_mem ‹_›
  rw [List.length_drop]
  omega

/-- A read that succeeds takes the first of these frames. -/
theorem readDone_frames {s after : Session} {onData : Session.OnData}
    (moved : Session.step s (.readDone onData) = some after) : ∃ line, after.frames = s.frames ++ [line] ∧
      frames s.readBuffer = line :: frames after.readBuffer := by
  cases Session.moves_of_step moved with
  | readDone _ reading line =>
    obtain ⟨framed, _, rest⟩ := Session.processRead_frames (s.readBuffer.idxOf (byte '\n') + 1) onData
      { s with reading := false }
    refine ⟨_, framed, ?_⟩
    rw [rest, frames, dif_pos line]

/-- Without a line end before it, the first line goes up to the first one after that. -/
theorem frames_append {front rest : List UInt8} (noEnd : byte '\n' ∉ front) (line : byte '\n' ∈ rest) :
    ∃ more later, frames (front ++ rest) = (front ++ more) :: later := by
  have member : byte '\n' ∈ front ++ rest := List.mem_append_right _ line
  refine ⟨rest.take (rest.idxOf (byte '\n') + 1), ?_⟩
  rw [frames, dif_pos member, List.idxOf_append_of_notMem noEnd, Nat.add_assoc, List.take_length_add_append]
  exact ⟨_, rfl⟩

/-- The server handles the frames of a session in turn, until a handler throws. -/
def serve (session : SessionAddr) : List (List UInt8) → ClientList → List SessionCall
  | [], _ => []
  | frame :: rest, clients =>
    let handled := handleMessage frame session clients
    match handled.outcome with
    | .ok () => handled.calls ++ serve session rest handled.clients
    | .error _ => handled.calls

/-- The bytes that these calls send over the session. -/
def replyTo (session : SessionAddr) (calls : List SessionCall) : List UInt8 :=
  calls.flatMap fun
    | .sendMsg s message => if s = session then message else []
    | .stop _ => []

/-- A frame that names no client is answered with the error first of all. -/
theorem serve_refused {frame : List UInt8} (parsed : parseClientId frame = .ok 0) (session : SessionAddr)
    (later : List (List UInt8)) (clients : ClientList) :
    serve session (frame :: later) clients = .sendMsg session errResponse :: serve session later clients := by
  rw [serve, handleMessage_refused parsed]
  rfl

end Stakan.TCPServer
