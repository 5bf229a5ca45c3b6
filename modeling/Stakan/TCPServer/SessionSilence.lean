import Stakan.TCPServer.Session

namespace Stakan.Session
open LabelledRun

/-- A session as `OnAccept` leaves it: its callbacks are set and it has been started. -/
def onAccept (opened : Bool) : Session := read { socketOpen := opened, started := true }

/-- Once the session is disconnected, its handler of frames is never invoked again. -/
def SilentOnceGone (start : Session) (events : List Event) (last : Session) : Prop :=
  ∀ before after s, events = before ++ after → exec step start before = some s → s.disconnected = true →
    last.frames = s.frames

/-- A read that is outstanding in a disconnected session completes with an
error, if it completes at all. -/
def ReadFailsOnceGone (start : Session) (events : List Event) : Prop :=
  ∀ before between onData after s, events = before ++ (between ++ .readDone onData :: after) →
    exec step start before = some s → s.disconnected = true → s.reading = true → .readFailed ∈ between

/-- What sending and stopping leave alone. -/
structure SameReads (s t : Session) : Prop where
  frames : t.frames = s.frames
  reading : t.reading = s.reading
  started : t.started = s.started
  readBuffer : t.readBuffer = s.readBuffer

theorem SameReads.trans {s t u : Session} (first : SameReads s t) (second : SameReads t u) : SameReads s u :=
  ⟨second.frames.trans first.frames, second.reading.trans first.reading, second.started.trans first.started,
    second.readBuffer.trans first.readBuffer⟩

theorem notifyDisconnectOnce_sameReads (s : Session) : SameReads s s.notifyDisconnectOnce := by
  unfold notifyDisconnectOnce
  split <;> exact ⟨rfl, rfl, rfl, rfl⟩

theorem write_sameReads (s : Session) : SameReads s s.write := by
  unfold write
  split
  next =>
    have reset : SameReads s { s with writeInProgress := false } := ⟨rfl, rfl, rfl, rfl⟩
    exact reset.trans (notifyDisconnectOnce_sameReads _)
  next => split <;> exact ⟨rfl, rfl, rfl, rfl⟩

theorem sendMsg_sameReads (message : List UInt8) (s : Session) : SameReads s (s.sendMsg message) := by
  unfold sendMsg
  split
  next => exact ⟨rfl, rfl, rfl, rfl⟩
  next =>
    dsimp only
    split
    next => exact ⟨rfl, rfl, rfl, rfl⟩
    next =>
      have queued : SameReads s { s with
        messagesQueue := s.messagesQueue ++ [⟨s.accepted.length, message⟩]
        accepted := s.accepted ++ [⟨s.accepted.length, message⟩]
        writeInProgress := true } := ⟨rfl, rfl, rfl, rfl⟩
      exact queued.trans (write_sameReads _)

theorem stop_sameReads (s : Session) : SameReads s s.stop := by
  unfold stop
  split <;> exact ⟨rfl, rfl, rfl, rfl⟩

theorem processWrite_sameReads (error : Bool) (s : Session) : SameReads s (processWrite error s) := by
  unfold processWrite
  split
  next =>
    have reset : SameReads s { s with writeInProgress := false } := ⟨rfl, rfl, rfl, rfl⟩
    exact reset.trans (notifyDisconnectOnce_sameReads _)
  next =>
    have popped : SameReads s { s with messagesQueue := s.messagesQueue.tail } := ⟨rfl, rfl, rfl, rfl⟩
    dsimp only
    split
    next => exact ⟨rfl, rfl, rfl, rfl⟩
    next => exact popped.trans (write_sameReads _)

theorem perform_sameReads (requests : List Request) (s : Session) : SameReads s (requests.foldl perform s) := by
  induction requests generalizing s with
  | nil => exact ⟨rfl, rfl, rfl, rfl⟩
  | cons request requests ih =>
    cases request with
    | sendMsg message => exact (sendMsg_sameReads message s).trans (ih _)
    | stop => exact (stop_sameReads s).trans (ih _)

theorem read_frames (s : Session) :
    s.read.frames = s.frames ∧ s.read.started = s.started ∧ s.read.readBuffer = s.readBuffer := by
  unfold read
  split
  next =>
    have gone := notifyDisconnectOnce_sameReads s
    exact ⟨gone.frames, gone.started, gone.readBuffer⟩
  next => exact ⟨rfl, rfl, rfl⟩

/-- A read that succeeds invokes the handler once, in whatever state the session is. -/
theorem processRead_frames (count : Nat) (onData : OnData) (s : Session) :
    (processRead false count onData s).frames = s.frames ++ [s.readBuffer.take count] ∧
      (processRead false count onData s).started = s.started ∧
      (processRead false count onData s).readBuffer = s.readBuffer.drop count := by
  let framed := { s with readBuffer := s.readBuffer.drop count, frames := s.frames ++ [s.readBuffer.take count] }
  have handled : SameReads framed (onData.requests.foldl perform framed) := perform_sameReads onData.requests framed
  simp only [processRead, Bool.false_eq_true, if_false]
  split
  next => exact ⟨handled.frames, handled.started, handled.readBuffer⟩
  next =>
    obtain ⟨frames, started, readBuffer⟩ := read_frames (onData.requests.foldl perform framed)
    exact ⟨frames.trans handled.frames, started.trans handled.started, readBuffer.trans handled.readBuffer⟩

/-- What an event means to the reading side of the session. -/
inductive Reads (s after : Session) : Event → Prop
  | frame (onData : OnData) (data : List UInt8) : s.reading = true → after.frames = s.frames ++ [data] →
      Reads s after (.readDone onData)
  | failure : after.reading = false → after.frames = s.frames → Reads s after .readFailed
  | other (event : Event) : (∀ onData, event ≠ .readDone onData) → event ≠ .readFailed →
      after.reading = s.reading → after.frames = s.frames → Reads s after event

theorem step_reads {s after : Session} {event : Event} (started : s.started = true)
    (moved : step s event = some after) : after.started = true ∧ Reads s after event := by
  have other (same : SameReads s after) (noRead : ∀ onData, event ≠ .readDone onData)
      (noFailure : event ≠ .readFailed) : after.started = true ∧ Reads s after event :=
    ⟨same.started.trans started, .other event noRead noFailure same.reading same.frames⟩
  cases moves_of_step moved with
  | start fresh =>
    rw [started] at fresh
    contradiction
  | sendMsg message => exact other (sendMsg_sameReads message s) (by simp) (by simp)
  | stop => exact other (stop_sameReads s) (by simp) (by simp)
  | receive bytes => exact ⟨started, .other _ (by simp) (by simp) rfl rfl⟩
  | readDone onData reading line =>
    have framed := processRead_frames (s.readBuffer.idxOf (byte '\n') + 1) onData { s with reading := false }
    exact ⟨framed.2.1.trans started, .frame onData _ reading framed.1⟩
  | readFailed reading =>
    have gone := notifyDisconnectOnce_sameReads { s with reading := false }
    exact ⟨gone.started.trans started, .failure gone.reading gone.frames⟩
  | writeDone i | writeFailed i =>
    have completed : SameReads s { s with outstanding := s.outstanding.eraseIdx i } := ⟨rfl, rfl, rfl, rfl⟩
    exact other (completed.trans (processWrite_sameReads _ _)) (by simp) (by simp)

theorem exec_started {s after : Session} {events : List Event} (run : exec step s events = some after)
    (started : s.started = true) : after.started = true :=
  exec_invariant (fun _ _ _ started moved => (step_reads started moved).1) run started

theorem exec_frames_length {s after : Session} {events : List Event} (started : s.started = true)
    (run : exec step s events = some after) : s.frames.length ≤ after.frames.length := by
  have preserved : ∀ t event u, t.started = true ∧ s.frames.length ≤ t.frames.length → step t event = some u →
      u.started = true ∧ s.frames.length ≤ u.frames.length := by
    intro t event u ⟨started, grown⟩ moved
    obtain ⟨still, reads⟩ := step_reads started moved
    refine ⟨still, ?_⟩
    cases reads with
    | frame onData data reading frames =>
      rw [frames, List.length_append]
      omega
    | failure ended frames => rwa [frames]
    | other _ _ _ _ frames => rwa [frames]
  exact (exec_invariant preserved run ⟨started, le_rfl⟩).2

/-- From any state on, the handler stays silent if the outstanding read fails. -/
theorem frames_of_readFails {s last : Session} {events : List Event} (started : s.started = true)
    (run : exec step s events = some last)
    (fails : s.reading = true → ∀ between onData after, events = between ++ .readDone onData :: after →
      .readFailed ∈ between) : last.frames = s.frames := by
  induction events generalizing s with
  | nil => rw [Option.some.inj run]
  | cons event events ih =>
    obtain ⟨t, moved, rest⟩ := exec_cons_split run
    obtain ⟨still, reads⟩ := step_reads started moved
    cases reads with
    | frame onData data reading _ =>
      have never := fails reading [] onData events rfl
      contradiction
    | failure ended frames =>
      rw [← frames]
      exact ih still rest fun reading => by rw [ended] at reading; contradiction
    | other _ _ noFailure same frames =>
      rw [← frames]
      refine ih still rest fun reading between onData after split => ?_
      have member := fails (same ▸ reading) (event :: between) onData after (by rw [split, List.cons_append])
      exact (List.mem_cons.mp member).resolve_left (Ne.symm noFailure)

theorem onAccept_started (opened : Bool) : (onAccept opened).started = true := (read_frames _).2.1

/-- A disconnected session is silent exactly if the read that is outstanding
in it does not succeed any more. -/
theorem silentOnceGone_iff (opened : Bool) (events : List Event) (last : Session)
    (run : exec step (onAccept opened) events = some last) :
    SilentOnceGone (onAccept opened) events last ↔ ReadFailsOnceGone (onAccept opened) events := by
  constructor
  · intro silent before between onData after s split first gone _
    have same := silent before _ s split first gone
    rw [split, exec_trans first, exec_append] at run
    obtain ⟨t, middle, rest⟩ := Option.bind_eq_some_iff.mp run
    obtain ⟨u, moved, final⟩ := exec_cons_split rest
    have started := exec_started first (onAccept_started opened)
    obtain ⟨still, reads⟩ := step_reads (exec_started middle started) moved
    cases reads with
    | frame _ data _ frames =>
      have until_t := exec_frames_length started middle
      have from_u := exec_frames_length still final
      rw [frames, List.length_append, List.length_singleton, same] at from_u
      omega
    | other _ noRead => exact absurd rfl (noRead onData)
  · intro fails before after s split first gone
    rw [split, exec_trans first] at run
    refine frames_of_readFails (exec_started first (onAccept_started opened)) run fun reading between onData rest cut => ?_
    exact fails before between onData rest s (by rw [split, cut]) first gone reading

/-- A write fails while a read is outstanding: the socket stays open, and
the next line of the peer is handed to the server. -/
theorem disconnected_session_reads : ¬∀ opened events last, exec step (onAccept opened) events = some last →
    SilentOnceGone (onAccept opened) events last := by
  intro claim
  let gone : List Event := [.sendMsg (bytesOf "x"), .writeFailed 0]
  let speaks : List Event := [.receive (bytesOf "HELLO 5\n"), .readDone {}]
  obtain ⟨last, run, frames⟩ : ∃ last, exec step (onAccept true) (gone ++ speaks) = some last ∧
      last.frames = [bytesOf "HELLO 5\n"] := ⟨_, rfl, rfl⟩
  have silent := claim true (gone ++ speaks) last run gone speaks _ rfl rfl rfl
  rw [frames] at silent
  contradiction

/-- A stop that the outstanding read is told of. -/
theorem stopped_session_silent : ∃ last, last.disconnected = true ∧ SilentOnceGone (onAccept true)
    [.receive (bytesOf "HELLO 5\n"), .readDone {}, .stop, .readFailed, .sendMsg [1]] last := by
  let events : List Event := [.receive (bytesOf "HELLO 5\n"), .readDone {}, .stop, .readFailed, .sendMsg [1]]
  obtain ⟨last, run, gone⟩ : ∃ last, exec step (onAccept true) events = some last ∧ last.disconnected = true :=
    ⟨_, rfl, rfl⟩
  refine ⟨last, gone, (silentOnceGone_iff true events last run).mpr ?_⟩
  intro before between onData after s split first disconnected reading
  rcases before with _ | ⟨_, _ | ⟨_, before⟩⟩
  · cases Option.some.inj first
    contradiction
  · obtain ⟨rfl, _⟩ := List.cons.inj split
    cases Option.some.inj first
    contradiction
  · have later : [.stop, .readFailed, .sendMsg [1]] = before ++ (between ++ .readDone onData :: after) :=
      (List.cons.inj (List.cons.inj split).2).2
    have member : Event.readDone onData ∈ [Event.stop, .readFailed, .sendMsg [1]] := by rw [later]; simp
    simp at member

end Stakan.Session
