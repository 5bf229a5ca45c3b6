import Stakan.TcpClient.Subscribe

namespace Stakan.TcpClient
open TCPServer (frames serve handleMessage errResponse)

/-- The symbol of a request, whatever it is. -/
def Request.symbol : Request → List UInt8
  | .subscribe symbol => symbol
  | .unsubscribe symbol => symbol

def Request.word : Request → List UInt8
  | .subscribe _ => bytesOf "SUBSCRIBE "
  | .unsubscribe _ => bytesOf "UNSUBSCRIBE "

/-- The client list once the server has handled the frames in turn, until a handler throws. -/
def served (session : SessionAddr) : List (List UInt8) → ClientList → ClientList
  | [], clients => clients
  | frame :: rest, clients =>
    let handled := handleMessage frame session clients
    match handled.outcome with
    | .ok () => served session rest handled.clients
    | .error _ => handled.clients

theorem frames_nil : frames [] = [] := by
  rw [frames, dif_neg List.not_mem_nil]

theorem frames_line {front : List UInt8} (noEnd : byte '\n' ∉ front) (rest : List UInt8) :
    frames (front ++ byte '\n' :: rest) = (front ++ [byte '\n']) :: frames rest := by
  have member : byte '\n' ∈ front ++ byte '\n' :: rest := by simp
  have place : (front ++ byte '\n' :: rest).idxOf (byte '\n') = front.length := by
    rw [List.idxOf_append_of_notMem noEnd, List.idxOf_cons_self, Nat.add_zero]
  rw [frames, dif_pos member, place]
  congr 1
  · rw [List.take_length_add_append]
    rfl
  · rw [List.drop_length_add_append]
    rfl

/-- Every line of a text ends in a frame of its own. -/
theorem frames_lines {first : List UInt8} {lines : List (List UInt8)} (noEnd : byte '\n' ∉ first)
    (noEnds : ∀ line ∈ lines, byte '\n' ∉ line) :
    frames (first ++ lines.flatMap (fun line => byte '\n' :: line) ++ [byte '\n']) =
      (first :: lines).map fun line => line ++ [byte '\n'] := by
  induction lines generalizing first with
  | nil =>
    rw [List.flatMap_nil, List.append_nil, frames_line noEnd, frames_nil]
    rfl
  | cons line lines ih =>
    have later := ih (noEnds line List.mem_cons_self) fun other member => noEnds other (List.mem_cons_of_mem _ member)
    rw [List.flatMap_cons, List.append_assoc, List.cons_append, List.cons_append, frames_line noEnd, later]
    rfl

/-- Whatever stands behind a line end in the symbol of a request is to the
server a message of its own: it refuses the request, and then handles those.
What waits in its buffer is at most the beginning of a line. -/
theorem request_smuggles (request : Request) (buffered first : List UInt8) (lines : List (List UInt8))
    (symbol : request.symbol = first ++ lines.flatMap fun line => byte '\n' :: line)
    (noEnd : byte '\n' ∉ buffered ++ first) (noEnds : ∀ line ∈ lines, byte '\n' ∉ line) (session : SessionAddr)
    (clients : ClientList) :
    serve session (frames (buffered ++ request.line)) clients =
      .sendMsg session errResponse :: serve session (lines.map fun line => line ++ [byte '\n']) clients ∧
    served session (frames (buffered ++ request.line)) clients =
      served session (lines.map fun line => line ++ [byte '\n']) clients := by
  have whole : buffered ++ request.line =
      (buffered ++ request.word ++ first) ++ lines.flatMap (fun line => byte '\n' :: line) ++ [byte '\n'] := by
    have line : request.line = request.word ++ request.symbol ++ [byte '\n'] := by cases request <;> rfl
    rw [line, symbol]
    simp only [List.append_assoc]
  have word : byte '\n' ∉ request.word ∧ byte 'S' ∈ request.word := by
    cases request with
    | subscribe => exact (by decide : byte '\n' ∉ bytesOf "SUBSCRIBE " ∧ byte 'S' ∈ bytesOf "SUBSCRIBE ")
    | unsubscribe => exact (by decide : byte '\n' ∉ bytesOf "UNSUBSCRIBE " ∧ byte 'S' ∈ bytesOf "UNSUBSCRIBE ")
  have clear : byte '\n' ∉ buffered ++ request.word ++ first := by
    simp only [List.mem_append, not_or] at noEnd ⊢
    exact ⟨⟨noEnd.1, word.1⟩, noEnd.2⟩
  have letter : byte 'S' ∈ buffered ++ request.word ++ first ++ [byte '\n'] := by simp [word.2]
  have refused := TCPServer.handleMessage_refused (parseClientId_of_mem letter) session clients
  rw [whole, frames_lines clear noEnds, List.map_cons]
  constructor
  · rw [serve, refused]
    rfl
  · rw [served, refused]

/-- A symbol that takes client 5 over, whose session was another one. -/
theorem request_smuggles_hello :
    served 9 (frames ([] ++ (Request.subscribe (bytesOf "EURUSD\nHELLO 5")).line)) (ClientList.addSession 5 (some 7) {}) =
        served 9 [bytesOf "HELLO 5" ++ [byte '\n']] (ClientList.addSession 5 (some 7) {}) ∧
      (served 9 [bytesOf "HELLO 5" ++ [byte '\n']] (ClientList.addSession 5 (some 7) {})).getSession 5 = .ok (some 9) := by
  have smuggled := request_smuggles (.subscribe (bytesOf "EURUSD\nHELLO 5")) [] (bytesOf "EURUSD") [bytesOf "HELLO 5"]
    (by decide) (by decide) (by decide) 9 (ClientList.addSession 5 (some 7) {})
  exact ⟨smuggled.2, rfl⟩

end Stakan.TcpClient
