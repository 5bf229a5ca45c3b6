import Stakan.Library.Delimited
import Stakan.TCPServer.SessionSilence

namespace Stakan.Session
open LabelledRun Delimited

/-- The bytes received in these events, however they were cut into chunks. -/
def received (events : List Event) : List UInt8 :=
  events.flatMap fun
    | .receive bytes => bytes
    | _ => []

/-- Nobody stops the session, its handler of frames returns, and a read fails
only while its buffer holds no line. -/
def Undisturbed (s : Session) : Event → Prop
  | .stop => False
  | .readDone onData => onData.throws = false ∧ ∀ request ∈ onData.requests, request ≠ .stop
  | .readFailed => byte '\n' ∉ s.readBuffer
  | _ => True

/-- The frames given to the handler and the buffer against the bytes received:
nothing is lost or repeated, each frame is one line with its end, and the
frames are the first lines of the stream, all of them once the buffer holds none. -/
structure FramesLines (stream : List UInt8) (s : Session) : Prop where
  accounted : s.frames.flatten ++ s.readBuffer = stream
  terminated : ∀ frame ∈ s.frames, ∃ line, frame = line ++ [byte '\n'] ∧ byte '\n' ∉ line
  in_order : ∀ lines rest, Cut (byte '\n') stream lines rest → byte '\n' ∉ rest →
    ∃ later, lines = s.frames ++ later ∧ (byte '\n' ∉ s.readBuffer → later = [])

/-- A read is outstanding for every line in the buffer, and as these reads
complete the handler is given all lines of the stream. -/
structure LinesTaken (stream : List UInt8) (s : Session) : Prop where
  pending : byte '\n' ∈ s.readBuffer → s.reading = true
  taken : ∀ lines rest, Cut (byte '\n') stream lines rest → byte '\n' ∉ rest →
    ∃ last, exec step s (List.replicate (lines.length - s.frames.length) (.readDone {})) = some last ∧
      last.frames = lines ∧ last.readBuffer = rest

/-- A read is outstanding only in an open session, and whenever the buffer holds a line. -/
structure Attentive (s : Session) : Prop where
  opened : s.reading = true → s.socketOpen = true
  pending : byte '\n' ∈ s.readBuffer → s.reading = true

theorem received_snoc (events : List Event) (event : Event) :
    received (events ++ [event]) = received events ++ received [event] := List.flatMap_append ..

theorem notifyDisconnectOnce_socketOpen (s : Session) : s.notifyDisconnectOnce.socketOpen = s.socketOpen := by
  unfold notifyDisconnectOnce
  split <;> rfl

theorem write_socketOpen (s : Session) : s.write.socketOpen = s.socketOpen := by
  unfold write
  split
  next => exact notifyDisconnectOnce_socketOpen _
  next => split <;> rfl

theorem sendMsg_socketOpen (message : List UInt8) (s : Session) : (s.sendMsg message).socketOpen = s.socketOpen := by
  unfold sendMsg
  split
  next => rfl
  next =>
    dsimp only
    split
    next => rfl
    next => exact write_socketOpen _

theorem processWrite_socketOpen (error : Bool) (s : Session) :
    (processWrite error s).socketOpen = s.socketOpen := by
  unfold processWrite
  split
  next => exact notifyDisconnectOnce_socketOpen _
  next =>
    dsimp only
    split
    next => rfl
    next => exact write_socketOpen _

theorem perform_socketOpen {requests : List Request} (stops : ∀ request ∈ requests, request ≠ .stop) (s : Session) :
    (requests.foldl perform s).socketOpen = s.socketOpen := by
  induction requests generalizing s with
  | nil => rfl
  | cons request requests ih =>
    rw [List.foldl_cons, ih fun later member => stops later (List.mem_cons_of_mem _ member)]
    cases request with
    | sendMsg message => exact sendMsg_socketOpen message s
    | stop => exact absurd rfl (stops .stop List.mem_cons_self)

/-- Where the handler neither throws nor stops the session, the next read starts at once. -/
theorem processRead_reading {onData : OnData} {s : Session} (count : Nat) (opened : s.socketOpen = true)
    (returns : onData.throws = false) (stops : ∀ request ∈ onData.requests, request ≠ .stop) :
    (processRead false count onData s).reading = true ∧ (processRead false count onData s).socketOpen = true := by
  let framed := { s with readBuffer := s.readBuffer.drop count, frames := s.frames ++ [s.readBuffer.take count] }
  have still : (onData.requests.foldl perform framed).socketOpen = true :=
    (perform_socketOpen stops framed).trans opened
  simp only [processRead, Bool.false_eq_true, if_false, returns, read]
  rw [if_neg (by simpa using still)]
  exact ⟨rfl, still⟩

/-- A session whose reads are as before, with its socket. -/
theorem Attentive.of_same {s after : Session} (attentive : Attentive s) (same : SameReads s after)
    (socket : after.socketOpen = s.socketOpen) : Attentive after where
  opened reading := by rw [socket]; exact attentive.opened (same.reading ▸ reading)
  pending line := by rw [same.reading]; exact attentive.pending (same.readBuffer ▸ line)

theorem Attentive.step {s after : Session} {event : Event} (attentive : Attentive s)
    (undisturbed : s.Undisturbed event) (moved : Session.step s event = some after) : Attentive after := by
  cases moves_of_step moved with
  | start fresh =>
    have begun : Attentive { s with started := true } := ⟨attentive.opened, attentive.pending⟩
    unfold read
    split
    next => exact begun.of_same (notifyDisconnectOnce_sameReads _) (notifyDisconnectOnce_socketOpen _)
    next opened => exact ⟨fun _ => by simpa using opened, fun _ => rfl⟩
  | sendMsg message => exact attentive.of_same (sendMsg_sameReads message s) (sendMsg_socketOpen message s)
  | stop => exact undisturbed.elim
  | receive bytes reading noLine => exact ⟨attentive.opened, fun _ => reading⟩
  | readDone onData reading line =>
    obtain ⟨again, still⟩ := processRead_reading (s := { s with reading := false })
      (s.readBuffer.idxOf (byte '\n') + 1) (attentive.opened reading) undisturbed.1 undisturbed.2
    exact ⟨fun _ => still, fun _ => again⟩
  | readFailed reading =>
    have failed := notifyDisconnectOnce_sameReads { s with reading := false }
    refine ⟨fun reads => ?_, fun line => absurd (failed.readBuffer ▸ line) undisturbed⟩
    have idle : (processRead true 0 {} { s with reading := false }).reading = false := failed.reading
    rw [idle] at reads
    contradiction
  | writeDone i within | writeFailed i within =>
    have completed : SameReads s { s with outstanding := s.outstanding.eraseIdx i } := ⟨rfl, rfl, rfl, rfl⟩
    exact attentive.of_same (completed.trans (processWrite_sameReads _ _)) (processWrite_socketOpen _ _)

/-- What an event does to the frames and the buffer. -/
theorem cut_step {stream : List UInt8} {s after : Session} {event : Event}
    (cut : Cut (byte '\n') stream s.frames s.readBuffer) (moved : Session.step s event = some after) :
    Cut (byte '\n') (stream ++ received [event]) after.frames after.readBuffer := by
  have unchanged (nothing : received [event] = []) (frames : after.frames = s.frames)
      (buffer : after.readBuffer = s.readBuffer) :
      Cut (byte '\n') (stream ++ received [event]) after.frames after.readBuffer := by
    rwa [nothing, List.append_nil, frames, buffer]
  have same (nothing : received [event] = []) (same : SameReads s after) :=
    unchanged nothing same.frames same.readBuffer
  cases moves_of_step moved with
  | start fresh =>
    obtain ⟨frames, _, buffer⟩ := read_frames { s with started := true }
    exact unchanged rfl frames buffer
  | sendMsg message => exact same rfl (sendMsg_sameReads message s)
  | stop => exact same rfl (stop_sameReads s)
  | receive bytes reading noLine =>
    have arrived := cut.append bytes
    rwa [received, List.flatMap_singleton]
  | readDone onData reading line =>
    obtain ⟨frames, _, buffer⟩ := processRead_frames (s.readBuffer.idxOf (byte '\n') + 1) onData
      { s with reading := false }
    have next := cut.trans (cut_first line)
    rw [frames, buffer, received, List.flatMap_singleton, List.append_nil]
    exact next
  | readFailed reading =>
    have failed := notifyDisconnectOnce_sameReads { s with reading := false }
    exact unchanged rfl failed.frames failed.readBuffer
  | writeDone i within | writeFailed i within =>
    have completed : SameReads s { s with outstanding := s.outstanding.eraseIdx i } := ⟨rfl, rfl, rfl, rfl⟩
    exact same rfl (completed.trans (processWrite_sameReads _ _))

theorem cut_of_run {opened : Bool} {events : List Event} {s : Session}
    (run : exec step { socketOpen := opened } events = some s) :
    Cut (byte '\n') (received events) s.frames s.readBuffer := by
  induction events using List.reverseRecOn generalizing s with
  | nil =>
    obtain rfl := Option.some.inj run
    exact .start []
  | append_singleton events event ih =>
    obtain ⟨former, first, moved⟩ := exec_snoc_split run
    rw [received_snoc]
    exact cut_step (ih first) moved

/-- The reads that are due take every line of the buffer. -/
theorem Attentive.takes {s : Session} {lines : List (List UInt8)} {rest : List UInt8} (attentive : Attentive s)
    (cut : Cut (byte '\n') s.readBuffer lines rest) (ended : byte '\n' ∉ rest) :
    ∃ last, exec Session.step s (List.replicate lines.length (.readDone {})) = some last ∧
      last.frames = s.frames ++ lines ∧ last.readBuffer = rest := by
  induction lines generalizing s with
  | nil => exact ⟨s, rfl, (List.append_nil _).symm, cut.whole.symm⟩
  | cons first lines ih =>
    obtain ⟨text, rfl, _⟩ := cut.terminated first List.mem_cons_self
    have line : byte '\n' ∈ s.readBuffer := by rw [← cut.whole]; simp
    have reading := attentive.pending line
    obtain ⟨later, same, left⟩ := (cut_first line).isPrefix cut ended
    obtain ⟨taken, rfl⟩ := List.cons.inj same
    have moved : Session.step s (.readDone {}) =
        some (processRead false (s.readBuffer.idxOf (byte '\n') + 1) {} { s with reading := false }) :=
      if_pos ⟨reading, line⟩
    obtain ⟨frames, _, buffer⟩ := processRead_frames (s.readBuffer.idxOf (byte '\n') + 1) {}
      { s with reading := false }
    have undisturbed : s.Undisturbed (.readDone {}) := ⟨rfl, fun request member => by simp at member⟩
    obtain ⟨last, run, all, remaining⟩ := ih (attentive.step undisturbed moved) (by rw [buffer]; exact left)
    refine ⟨last, exec_cons_of moved run, ?_, remaining⟩
    rw [all, frames, taken, List.append_assoc]
    rfl

/-- Whatever the strand runs and however the stream arrives, the handler is
given its lines in order and whole, and if nobody disturbs the session, each of them in turn. -/
theorem run_framesLines (opened : Bool) (events : List Event) (s : Session)
    (run : exec step { socketOpen := opened } events = some s) : FramesLines (received events) s ∧
      (Guarded step Undisturbed { socketOpen := opened } events → LinesTaken (received events) s) := by
  have cut := cut_of_run run
  constructor
  · refine ⟨cut.whole, cut.terminated, fun lines rest other ended => ?_⟩
    obtain ⟨later, split, left⟩ := cut.isPrefix other ended
    refine ⟨later, split, fun noLine => ?_⟩
    exact (Cut.unique (.start s.readBuffer) left noLine ended).1
  · intro undisturbed
    have initial : Attentive { socketOpen := opened } :=
      ⟨fun reading => by contradiction, fun line => by contradiction⟩
    have attentive : Attentive s :=
      exec_guarded_invariant (fun _ _ _ attentive undisturbed moved => attentive.step undisturbed moved)
        run undisturbed initial
    refine ⟨attentive.pending, fun lines rest other ended => ?_⟩
    obtain ⟨later, rfl, left⟩ := cut.isPrefix other ended
    obtain ⟨last, reads, frames, buffer⟩ := attentive.takes left ended
    exact ⟨last, by rwa [List.length_append, Nat.add_sub_cancel_left], frames, buffer⟩

/-- Two lines in three chunks. -/
theorem chunked_lines_taken : ∃ s : Session, s.frames = [bytesOf "a\n"] ∧ FramesLines (bytesOf "a\nbc\n") s ∧
    LinesTaken (bytesOf "a\nbc\n") s := by
  let events : List Event :=
    [.start, .receive (bytesOf "a\nb"), .readDone {}, .receive (bytesOf "c"), .receive (bytesOf "\n")]
  obtain ⟨s, run, frames⟩ : ∃ s, exec step { socketOpen := true } events = some s ∧ s.frames = [bytesOf "a\n"] :=
    ⟨_, rfl, rfl⟩
  obtain ⟨lines, taken⟩ := run_framesLines true events s run
  refine ⟨s, frames, lines, taken ?_⟩
  refine guarded_cons trivial rfl (guarded_cons trivial rfl (guarded_cons ⟨rfl, fun request member => ?_⟩ rfl
    (guarded_cons trivial rfl (guarded_cons trivial rfl (guarded_nil _ _ _)))))
  simp at member

end Stakan.Session
