import Mathlib.Data.List.Nodup
import Stakan.TCPServer.Session

namespace Stakan.Session
open LabelledRun

/-- What holds on both sides of the disconnect. -/
structure Sound (s : Session) : Prop where
  one : s.outstanding.length ≤ 1
  order : s.handed <+: s.accepted
  addrs : s.accepted.map Payload.addr = List.range s.accepted.length
  closed : s.disconnected = true → s.messagesQueue = [] ∨ s.socketOpen = false
  notified : s.disconnects = 0 ∨ s.disconnected = true ∧ s.disconnects = 1

/-- Nothing is queued, or the front of the queue is being written. -/
def Flowing (s : Session) : Prop :=
  (s.outstanding = [] ∧ s.messagesQueue = [] ∧ s.writeInProgress = false ∧ s.accepted = s.handed) ∨
    ∃ chunk rest, s.outstanding = [chunk] ∧ s.messagesQueue = chunk :: rest ∧ s.writeInProgress = true ∧
      s.accepted = s.handed ++ rest

/-- The whole queue waits for a write that is about to start. -/
def Ready (s : Session) : Prop :=
  s.outstanding = [] ∧ s.writeInProgress = true ∧ s.accepted = s.handed ++ s.messagesQueue

/-- The joint invariant of the queue, the flags and the outstanding write. -/
structure Consistent (s : Session) : Prop extends Sound s where
  flowing : s.disconnected = false → Flowing s

/-- Reading touches nothing that the invariant speaks of. -/
theorem Consistent.withReads {s : Session} (consistent : Consistent s) (started reading : Bool)
    (readBuffer : List UInt8) (frames : List (List UInt8)) :
    Consistent { s with started, reading, readBuffer, frames } :=
  ⟨⟨consistent.one, consistent.order, consistent.addrs, consistent.closed, consistent.notified⟩, consistent.flowing⟩

theorem notifyDisconnectOnce_consistent {s : Session} (sound : Sound s) : Consistent s.notifyDisconnectOnce := by
  obtain ⟨one, order, addrs, closed, notified⟩ := sound
  unfold notifyDisconnectOnce
  by_cases gone : s.disconnected = true
  · rw [if_pos gone]
    exact ⟨⟨one, order, addrs, closed, notified⟩, fun connected => by rw [gone] at connected; contradiction⟩
  · rw [if_neg gone]
    have fresh : s.disconnects = 0 := notified.resolve_right fun both => gone both.1
    exact ⟨⟨one, order, addrs, fun _ => Or.inl rfl, Or.inr ⟨rfl, by simp [fresh]⟩⟩, fun connected => by contradiction⟩

theorem write_consistent {s : Session} (sound : Sound s) (ready : s.disconnected = false → Ready s) :
    Consistent s.write := by
  obtain ⟨one, order, addrs, closed, notified⟩ := sound
  unfold write
  split
  next => exact notifyDisconnectOnce_consistent ⟨one, order, addrs, closed, notified⟩
  next opened =>
    split
    next empty =>
      refine ⟨⟨one, order, addrs, fun _ => Or.inl empty, notified⟩, fun connected => Or.inl ?_⟩
      obtain ⟨outstanding, _, accepted⟩ := ready connected
      exact ⟨outstanding, empty, rfl, by simpa [empty] using accepted⟩
    next chunk rest queue =>
      have connected : s.disconnected = false := by
        by_contra gone
        have cleared := closed (by simpa using gone)
        simp [queue] at cleared
        simp [cleared] at opened
      obtain ⟨outstanding, progress, accepted⟩ := ready connected
      have inOrder : s.accepted = (s.handed ++ [chunk]) ++ rest := by rw [accepted, queue]; simp
      refine ⟨⟨by simp [outstanding], ⟨rest, inOrder.symm⟩, addrs, fun gone => ?_, notified⟩, fun _ => Or.inr ?_⟩
      · rw [show s.disconnected = true from gone] at connected
        contradiction
      · exact ⟨chunk, rest, by simp [outstanding], queue, progress, inOrder⟩

theorem sendMsg_consistent {s : Session} (consistent : Consistent s) (message : List UInt8) :
    Consistent (s.sendMsg message) := by
  unfold sendMsg
  split
  next => exact consistent
  next takes =>
    obtain ⟨connected, opened⟩ : s.disconnected = false ∧ s.socketOpen = true := by simpa using takes
    obtain ⟨⟨one, order, addrs, closed, notified⟩, flowing⟩ := consistent
    have renumbered : (s.accepted ++ [(⟨s.accepted.length, message⟩ : Payload)]).map Payload.addr =
        List.range (s.accepted ++ [(⟨s.accepted.length, message⟩ : Payload)]).length := by
      simp [addrs, List.range_succ]
    have longer : s.handed <+: s.accepted ++ [(⟨s.accepted.length, message⟩ : Payload)] :=
      order.trans (List.prefix_append _ _)
    have still : s.disconnected = true → False := by simp [connected]
    rcases flowing connected with ⟨outstanding, queue, idle, accepted⟩ | ⟨chunk, rest, outstanding, queue, busy, accepted⟩
    · simp only [idle]
      refine write_consistent ⟨one, longer, renumbered, fun gone => (still gone).elim, notified⟩ fun _ => ?_
      exact ⟨outstanding, rfl, by simp [accepted, queue]⟩
    · simp only [busy, if_true]
      refine ⟨⟨one, longer, renumbered, fun gone => (still gone).elim, notified⟩, fun _ => Or.inr ?_⟩
      exact ⟨chunk, rest ++ [⟨s.accepted.length, message⟩], outstanding, by simp [queue], rfl, by simp [accepted]⟩

theorem stop_consistent {s : Session} (consistent : Consistent s) : Consistent s.stop := by
  unfold stop
  split
  next => exact consistent
  next connected =>
    obtain ⟨⟨one, order, addrs, closed, notified⟩, _⟩ := consistent
    have silent : s.disconnects = 0 := notified.resolve_right fun both => connected both.1
    exact ⟨⟨one, order, addrs, fun _ => Or.inr rfl, Or.inl silent⟩, fun connected => by contradiction⟩

theorem read_consistent {s : Session} (consistent : Consistent s) : Consistent s.read := by
  unfold read
  split
  next => exact notifyDisconnectOnce_consistent consistent.toSound
  next => exact consistent.withReads _ true _ _

/-- The completion of the outstanding write. -/
theorem processWrite_consistent {s : Session} (consistent : Consistent s) (error : Bool) {i : Nat}
    (within : i < s.outstanding.length) :
    Consistent (processWrite error { s with outstanding := s.outstanding.eraseIdx i }) := by
  obtain ⟨⟨one, order, addrs, closed, notified⟩, flowing⟩ := consistent
  have none_left : s.outstanding.eraseIdx i = [] := by
    apply List.eq_nil_of_length_eq_zero
    rw [List.length_eraseIdx_of_lt within]
    omega
  rw [none_left]
  cases error with
  | true => exact notifyDisconnectOnce_consistent ⟨Nat.zero_le 1, order, addrs, closed, notified⟩
  | false =>
    have closedTail : s.disconnected = true → s.messagesQueue.tail = [] ∨ s.socketOpen = false :=
      fun gone => (closed gone).imp_left fun empty => by rw [empty, List.tail_nil]
    have accepted : s.disconnected = false → s.accepted = s.handed ++ s.messagesQueue.tail ∧
        s.writeInProgress = true := by
      intro connected
      rcases flowing connected with ⟨outstanding, _⟩ | ⟨chunk, rest, _, queue, busy, accepted⟩
      · rw [outstanding] at within
        contradiction
      · exact ⟨by rw [queue, List.tail_cons, accepted], busy⟩
    simp only [processWrite, Bool.false_eq_true, if_false]
    split
    next empty =>
      have empty := List.isEmpty_iff.mp empty
      refine ⟨⟨Nat.zero_le 1, order, addrs, closedTail, notified⟩, fun connected => Or.inl ⟨rfl, empty, rfl, ?_⟩⟩
      rw [(accepted connected).1, empty, List.append_nil]
    next =>
      refine write_consistent ⟨Nat.zero_le 1, order, addrs, closedTail, notified⟩ fun connected => ?_
      exact ⟨rfl, (accepted connected).2, (accepted connected).1⟩

theorem perform_consistent (requests : List Request) {s : Session} (consistent : Consistent s) :
    Consistent (requests.foldl perform s) := by
  induction requests generalizing s with
  | nil => exact consistent
  | cons request requests ih =>
    cases request with
    | sendMsg message => exact ih (sendMsg_consistent consistent message)
    | stop => exact ih (stop_consistent consistent)

theorem processRead_consistent {s : Session} (consistent : Consistent s) (error : Bool) (count : Nat)
    (onData : OnData) : Consistent (processRead error count onData s) := by
  unfold processRead
  split
  next => exact notifyDisconnectOnce_consistent consistent.toSound
  next =>
    have framed := consistent.withReads s.started s.reading (s.readBuffer.drop count)
      (s.frames ++ [s.readBuffer.take count])
    have handled := perform_consistent onData.requests framed
    split
    next => exact handled
    next => exact read_consistent handled

theorem Consistent.step {s after : Session} {event : Event} (consistent : Consistent s)
    (moved : step s event = some after) : Consistent after := by
  cases moves_of_step moved with
  | start => exact read_consistent (consistent.withReads true _ _ _)
  | sendMsg message => exact sendMsg_consistent consistent message
  | stop => exact stop_consistent consistent
  | receive bytes => exact consistent.withReads _ _ _ _
  | readDone | readFailed => exact processRead_consistent (consistent.withReads _ false _ _) _ _ _
  | writeDone i within | writeFailed i within => exact processWrite_consistent consistent _ within

theorem initial_consistent (opened : Bool) : Consistent { socketOpen := opened } :=
  ⟨⟨Nat.zero_le 1, List.prefix_refl _, rfl, fun gone => by contradiction, Or.inl rfl⟩,
    fun _ => Or.inl ⟨rfl, rfl, rfl, rfl⟩⟩

/-- After the disconnect nothing is handed to `async_write` any more. -/
def Quiet (s after : Session) : Prop := after.disconnected = true ∧ after.handed = s.handed

theorem notifyDisconnectOnce_handed (s : Session) : s.notifyDisconnectOnce.handed = s.handed := by
  unfold notifyDisconnectOnce
  split <;> rfl

theorem notifyDisconnectOnce_disconnected (s : Session) : s.notifyDisconnectOnce.disconnected = true := by
  unfold notifyDisconnectOnce
  split
  next gone => exact gone
  next => rfl

theorem notifyDisconnectOnce_quiet {s t : Session} (same : t.handed = s.handed) : Quiet s t.notifyDisconnectOnce :=
  ⟨notifyDisconnectOnce_disconnected t, (notifyDisconnectOnce_handed t).trans same⟩

theorem read_quiet {s t : Session} (quiet : Quiet s t) : Quiet s t.read := by
  unfold read
  split
  next => exact notifyDisconnectOnce_quiet quiet.2
  next => exact quiet

/-- A queue that the disconnect left behind finds the socket closed. -/
theorem write_quiet {s t : Session} (quiet : Quiet s t) (closed : t.messagesQueue = [] ∨ t.socketOpen = false) :
    Quiet s t.write := by
  unfold write
  split
  next => exact notifyDisconnectOnce_quiet quiet.2
  next opened =>
    split
    next => exact quiet
    next queue => simp_all

theorem perform_quiet (requests : List Request) {s t : Session} (quiet : Quiet s t) :
    Quiet s (requests.foldl perform t) := by
  have gone := quiet.1
  have ignored : requests.foldl perform t = t := by
    induction requests with
    | nil => rfl
    | cons request requests ih =>
      cases request <;> simpa [perform, sendMsg, stop, gone] using ih
  rw [ignored]
  exact quiet

theorem processRead_quiet {s t : Session} (quiet : Quiet s t) (error : Bool) (count : Nat) (onData : OnData) :
    Quiet s (processRead error count onData t) := by
  unfold processRead
  split
  next => exact notifyDisconnectOnce_quiet quiet.2
  next =>
    have handled := perform_quiet onData.requests (s := s)
      (t := { t with readBuffer := t.readBuffer.drop count, frames := t.frames ++ [t.readBuffer.take count] }) quiet
    split
    next => exact handled
    next => exact read_quiet handled

theorem processWrite_quiet {s t : Session} (quiet : Quiet s t) (error : Bool)
    (closed : t.messagesQueue = [] ∨ t.socketOpen = false) : Quiet s (processWrite error t) := by
  cases error with
  | true => exact notifyDisconnectOnce_quiet quiet.2
  | false =>
    simp only [processWrite, Bool.false_eq_true, if_false]
    split
    next => exact quiet
    next => exact write_quiet quiet (closed.imp_left fun empty => by simp [empty])

theorem Consistent.step_quiet {s after : Session} {event : Event} (consistent : Consistent s)
    (gone : s.disconnected = true) (moved : Session.step s event = some after) : Quiet s after := by
  cases moves_of_step moved with
  | start =>
    have quiet : Quiet s { s with started := true } := ⟨gone, rfl⟩
    exact read_quiet quiet
  | sendMsg message => exact perform_quiet [.sendMsg message] ⟨gone, rfl⟩
  | stop => exact perform_quiet [.stop] ⟨gone, rfl⟩
  | receive bytes => exact ⟨gone, rfl⟩
  | readDone | readFailed =>
    have quiet : Quiet s { s with reading := false } := ⟨gone, rfl⟩
    exact processRead_quiet quiet _ _ _
  | writeDone i | writeFailed i =>
    have quiet : Quiet s { s with outstanding := s.outstanding.eraseIdx i } := ⟨gone, rfl⟩
    exact processWrite_quiet quiet _ (consistent.closed gone)

/-- The state of a session after any run of its strand. -/
structure WritesInOrder (s : Session) : Prop where
  one : s.outstanding.length ≤ 1
  order : s.handed <+: s.accepted ∧ (s.handed.map Payload.addr).Nodup
  queue : s.disconnected = false →
    (s.messagesQueue ≠ [] ↔ s.outstanding ≠ []) ∧ ∀ chunk ∈ s.outstanding, s.messagesQueue.head? = some chunk
  final : s.disconnected = true → ∀ events after, exec step s events = some after → after.handed = s.handed
  once : s.disconnects ≤ 1

theorem Consistent.writesInOrder {s : Session} (consistent : Consistent s) : WritesInOrder s := by
  constructor
  case one => exact consistent.one
  case order =>
    have nodup : (s.accepted.map Payload.addr).Nodup := by rw [consistent.addrs]; exact List.nodup_range
    exact ⟨consistent.order, (consistent.order.sublist.map Payload.addr).nodup nodup⟩
  case queue =>
    intro connected
    rcases consistent.flowing connected with ⟨outstanding, queue, _⟩ | ⟨chunk, rest, outstanding, queue, _⟩
    · simp [outstanding, queue]
    · simp [outstanding, queue]
  case final =>
    intro gone events after run
    have preserved : ∀ t event u, Consistent t ∧ Quiet s t → Session.step t event = some u → Consistent u ∧ Quiet s u := by
      intro t event u both moved
      have quiet := both.1.step_quiet both.2.1 moved
      exact ⟨both.1.step moved, quiet.1, quiet.2.trans both.2.2⟩
    exact (exec_invariant preserved run ⟨consistent, gone, rfl⟩).2.2
  case once => rcases consistent.notified with never | ⟨_, one⟩ <;> omega

/-- Whatever the strand runs, in whatever order, the session writes what it
accepted, in order and one message at a time, stops writing at the
disconnect, and reports that once. -/
theorem run_writesInOrder (opened : Bool) (events : List Event) (last : Session)
    (run : exec step { socketOpen := opened } events = some last) : WritesInOrder last :=
  (exec_invariant (fun _ _ _ consistent moved => Consistent.step consistent moved) run
    (initial_consistent opened)).writesInOrder

/-- Two messages, a stop with the first one in flight, and its late completion. -/
theorem stopped_session_writesInOrder : ∃ last : Session, WritesInOrder last ∧ last.handed.length = 1 ∧
    last.accepted.length = 2 := by
  let events : List Event := [.start, .sendMsg [1], .sendMsg [2], .stop, .writeDone 0, .readFailed]
  obtain ⟨last, run, handed, accepted⟩ : ∃ last, exec step { socketOpen := true } events = some last ∧
      last.handed.length = 1 ∧ last.accepted.length = 2 := ⟨_, rfl, rfl, rfl⟩
  exact ⟨last, run_writesInOrder true events last run, handed, accepted⟩

end Stakan.Session
