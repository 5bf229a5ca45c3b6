import Stakan.TCPServer.Server

namespace Stakan

namespace Session

/-- A session that is over, with what it had accepted and how often it had reported its end. -/
structure Ended (accepted : List Payload) (disconnects : Nat) (s : Session) : Prop where
  disconnected : s.disconnected = true
  accepted : s.accepted = accepted
  disconnects : s.disconnects = disconnects

variable {accepted : List Payload} {disconnects : Nat} {s : Session}

theorem Ended.notifyDisconnectOnce (ended : Ended accepted disconnects s) :
    Ended accepted disconnects s.notifyDisconnectOnce := by
  rwa [Session.notifyDisconnectOnce, if_pos ended.disconnected]

theorem Ended.read (ended : Ended accepted disconnects s) : Ended accepted disconnects s.read := by
  unfold Session.read
  split
  next => exact ended.notifyDisconnectOnce
  next => exact ⟨ended.disconnected, ended.accepted, ended.disconnects⟩

theorem Ended.write (ended : Ended accepted disconnects s) : Ended accepted disconnects s.write := by
  have idle : Ended accepted disconnects { s with writeInProgress := false } :=
    ⟨ended.disconnected, ended.accepted, ended.disconnects⟩
  unfold Session.write
  split
  next => exact idle.notifyDisconnectOnce
  next =>
    split
    next => exact idle
    next => exact ⟨ended.disconnected, ended.accepted, ended.disconnects⟩

theorem Ended.processWrite (ended : Ended accepted disconnects s) (error : Bool) :
    Ended accepted disconnects (processWrite error s) := by
  have idle : Ended accepted disconnects { s with writeInProgress := false } :=
    ⟨ended.disconnected, ended.accepted, ended.disconnects⟩
  have popped : Ended accepted disconnects { s with messagesQueue := s.messagesQueue.tail } :=
    ⟨ended.disconnected, ended.accepted, ended.disconnects⟩
  unfold Session.processWrite
  split
  next => exact idle.notifyDisconnectOnce
  next =>
    dsimp only
    split
    next => exact ⟨ended.disconnected, ended.accepted, ended.disconnects⟩
    next => exact popped.write

/-- A session that is over takes no message. -/
theorem Ended.perform (ended : Ended accepted disconnects s) (requests : List Request) :
    Ended accepted disconnects (requests.foldl perform s) := by
  induction requests generalizing s with
  | nil => exact ended
  | cons request requests ih =>
    refine ih ?_
    cases request with
    | sendMsg message =>
      have ignored : s.sendMsg message = s := by rw [sendMsg, ended.disconnected, Bool.true_or, if_pos rfl]
      rwa [Session.perform, ignored]
    | stop => rwa [Session.perform, stop, if_pos ended.disconnected]

theorem Ended.processRead (ended : Ended accepted disconnects s) (error : Bool) (count : Nat) (onData : OnData) :
    Ended accepted disconnects (processRead error count onData s) := by
  have framed : Ended accepted disconnects { s with
      readBuffer := s.readBuffer.drop count, frames := s.frames ++ [s.readBuffer.take count] } :=
    ⟨ended.disconnected, ended.accepted, ended.disconnects⟩
  unfold Session.processRead
  split
  next => exact ended.notifyDisconnectOnce
  next =>
    dsimp only
    split
    next => exact framed.perform onData.requests
    next => exact (framed.perform onData.requests).read

/-- Nothing revives a session that is over, and it reports nothing any more. -/
theorem Ended.step {after : Session} {event : Event} (ended : Ended accepted disconnects s)
    (moved : step s event = some after) : Ended accepted disconnects after := by
  have waited : Ended accepted disconnects { s with reading := false } :=
    ⟨ended.disconnected, ended.accepted, ended.disconnects⟩
  have written (i : Nat) : Ended accepted disconnects { s with outstanding := s.outstanding.eraseIdx i } :=
    ⟨ended.disconnected, ended.accepted, ended.disconnects⟩
  cases moves_of_step moved with
  | start =>
    have started : Ended accepted disconnects { s with started := true } :=
      ⟨ended.disconnected, ended.accepted, ended.disconnects⟩
    exact started.read
  | sendMsg message => exact ended.perform [.sendMsg message]
  | stop => exact ended.perform [.stop]
  | receive => exact ⟨ended.disconnected, ended.accepted, ended.disconnects⟩
  | readDone onData => exact waited.processRead _ _ _
  | readFailed => exact waited.processRead _ _ _
  | writeDone i => exact (written i).processWrite _
  | writeFailed i => exact (written i).processWrite _

end Session

namespace Server
open LabelledRun TCPServer

/-- The client is registered with a session that is over. -/
structure Lingers (c : ClientId) (p : SessionAddr) (accepted : List Payload) (disconnects : Nat) (s : Server) :
    Prop where
  bound : s.clients.getSession c = .ok (some p)
  ended : ∃ session, s.objects p = some session ∧ session.Ended accepted disconnects

/-- No other session says HELLO for the client. -/
def Spares (c : ClientId) (p : SessionAddr) (s : Server) : Event → Prop
  | .readDone q _ => ∀ session, s.objects q = some session →
      Hello c (session.readBuffer.take (session.readBuffer.idxOf (byte '\n') + 1)) → q = p
  | _ => True

variable {c : ClientId} {p : SessionAddr} {accepted : List Payload} {disconnects : Nat} {s t : Server}

/-- The end of another session passes a client by. -/
theorem handleDisconnect_lookup {clients : ClientList} (bound : clients.getSession c = .ok (some p)) {q : SessionAddr}
    (other : q ≠ p) : (handleDisconnect q clients).clients.clients.lookup c = clients.clients.lookup c := by
  unfold handleDisconnect
  split
  next => rfl
  next id _ =>
    split
    next => rfl
    next current found =>
      dsimp only
      split
      next same =>
        have different : c ≠ id := by
          rintro rfl
          have mine := Except.ok.inj (bound.symm.trans found)
          exact other (Option.some.inj (same.symm.trans mine.symm))
        exact AList.lookup_erase_ne different
      next => rfl

theorem handleDisconnect_bound {clients : ClientList} (bound : clients.getSession c = .ok (some p)) {q : SessionAddr}
    (other : q ≠ p) : (handleDisconnect q clients).clients.getSession c = .ok (some p) :=
  (ClientList.getSession_congr (handleDisconnect_lookup bound other)).trans bound

theorem Lingers.perform (lingers : Lingers c p accepted disconnects s) {q : SessionAddr} {event : Session.Event}
    (moved : s.perform q event = some t) : Lingers c p accepted disconnects t := by
  obtain ⟨bound, mine, present, ended⟩ := lingers
  unfold Server.perform at moved
  split at moved
  next =>
    obtain rfl := Option.some.inj moved
    exact ⟨bound, mine, present, ended⟩
  next session alive =>
    obtain ⟨after, stepped, moved⟩ := Option.bind_eq_some_iff.mp moved
    obtain rfl := Option.some.inj moved
    by_cases same : q = p
    · subst same
      obtain rfl := Option.some.inj (alive.symm.trans present)
      have still := ended.step stepped
      have silent : after.disconnects = session.disconnects := still.disconnects.trans ended.disconnects.symm
      refine ⟨?_, after, Function.update_self .., still⟩
      simpa only [if_pos silent] using bound
    · refine ⟨?_, mine, (Function.update_of_ne (Ne.symm same) ..).trans present, ended⟩
      dsimp only
      split
      next => exact bound
      next => exact handleDisconnect_bound bound same

theorem Lingers.dispatch (lingers : Lingers c p accepted disconnects s) {inline : SessionCall → Bool}
    {call : SessionCall} (moved : dispatch inline s call = some t) : Lingers c p accepted disconnects t := by
  have logged : Lingers c p accepted disconnects { s with calls := s.calls ++ [call] } := ⟨lingers.bound, lingers.ended⟩
  simp only [Server.dispatch] at moved
  split at moved
  next => exact logged.perform moved
  next =>
    obtain rfl := Option.some.inj moved
    exact ⟨lingers.bound, lingers.ended⟩

theorem Lingers.dispatchAll (lingers : Lingers c p accepted disconnects s) {inline : SessionCall → Bool}
    {calls : List SessionCall} (moved : calls.foldlM (Server.dispatch inline) s = some t) :
    Lingers c p accepted disconnects t :=
  exec_invariant (fun _ _ _ lingers moved => Lingers.dispatch lingers moved) moved lingers

theorem Lingers.broadcast (lingers : Lingers c p accepted disconnects s) {inline : SessionCall → Bool}
    {sent : Except Failure (List SessionCall)} (moved : s.broadcast inline sent = some t) :
    Lingers c p accepted disconnects t := by
  cases sent with
  | ok calls => exact lingers.dispatchAll moved
  | error failure =>
    cases failure with
    | undefinedBehaviour => contradiction
    | runtimeError | outOfRange =>
      obtain rfl := Option.some.inj moved
      exact lingers

theorem Lingers.onAccept (lingers : Lingers c p accepted disconnects s) {q : SessionAddr} {opened inline : Bool}
    (fresh : s.objects q = none) (moved : s.onAccept q opened inline = some t) :
    Lingers c p accepted disconnects t := by
  obtain ⟨bound, session, present, ended⟩ := lingers
  have different : p ≠ q := by
    rintro rfl
    rw [fresh] at present
    contradiction
  have made : Lingers c p accepted disconnects
      { s with objects := Function.update s.objects q (some { socketOpen := opened }) } :=
    ⟨bound, session, (Function.update_of_ne different ..).trans present, ended⟩
  obtain ⟨started, starts, rfl⟩ := Option.map_eq_some_iff.mp moved
  have done : Lingers c p accepted disconnects started := by
    split at starts
    next => exact made.perform starts
    next =>
      obtain rfl := Option.some.inj starts
      exact ⟨made.bound, made.ended⟩
  exact ⟨done.bound, done.ended⟩

/-- A frame leaves the list as it is, or is the HELLO of a registered client. -/
theorem handleMessage_cases (frame : List UInt8) (q : SessionAddr) (clients : ClientList) :
    (handleMessage frame q clients).clients = clients ∨
      ∃ d, Hello d frame ∧ HelloTaken d q clients (handleMessage frame q clients) := by
  rcases handleMessage_clients frame q clients with same | ⟨d, ctx, ⟨parsed, valid⟩, registered, _⟩
  · exact .inl same
  · exact .inr ⟨d, ⟨parsed, valid⟩, helloTaken_of_registered parsed valid registered q⟩

/-- A frame of another client, or of the session itself, leaves the client where it is. -/
theorem handleMessage_bound {frame : List UInt8} {clients : ClientList} {q : SessionAddr}
    (bound : clients.getSession c = .ok (some p)) (spared : Hello c frame → q = p) :
    (handleMessage frame q clients).clients.getSession c = .ok (some p) := by
  rcases handleMessage_cases frame q clients with same | ⟨d, hello, taken⟩
  · rwa [same]
  · by_cases own : d = c
    · subst own
      obtain rfl := spared hello
      exact taken.bound
    · rw [← bound]
      exact ClientList.getSession_congr (taken.others c (Ne.symm own))

theorem Lingers.handler (lingers : Lingers c p accepted disconnects s) {event : Event} (spared : Spares c p s event)
    (moved : s.handler event = some t) : Lingers c p accepted disconnects t := by
  cases event with
  | startServer =>
    obtain rfl := Option.some.inj moved
    exact ⟨lingers.bound, lingers.ended⟩
  | accept q opened error inline =>
    simp only [Server.handler] at moved
    split at moved
    next free =>
      split at moved
      next =>
        obtain rfl := Option.some.inj moved
        exact ⟨lingers.bound, lingers.ended⟩
      next => exact lingers.onAccept free.2 moved
    next => contradiction
  | strand q =>
    simp only [Server.handler] at moved
    split at moved
    next => contradiction
    next event rest _ =>
      have taken : Lingers c p accepted disconnects { s with strands := Function.update s.strands q rest } :=
        ⟨lingers.bound, lingers.ended⟩
      exact taken.perform moved
  | receive | readFailed | writeDone | writeFailed => exact lingers.perform moved
  | readDone q inline =>
    simp only [Server.handler] at moved
    split at moved
    next =>
      obtain rfl := Option.some.inj moved
      exact lingers
    next session alive =>
      obtain ⟨dispatched, others, moved⟩ := Option.bind_eq_some_iff.mp moved
      have handled := handleMessage_bound lingers.bound (spared session alive)
      have rest : Lingers c p accepted disconnects dispatched := by
        refine Lingers.dispatchAll ?_ others
        exact ⟨handled, lingers.ended⟩
      exact rest.perform moved
  | broadcastToSubscribed | broadcastToCertain => exact lingers.broadcast moved
  | stopServer inline =>
    have closed : Lingers c p accepted disconnects { s with acceptorOpen := false } := ⟨lingers.bound, lingers.ended⟩
    exact closed.dispatchAll moved

/-- The client list owns the session, so that it is not destroyed. -/
theorem Lingers.destroyUnowned (lingers : Lingers c p accepted disconnects s) :
    Lingers c p accepted disconnects s.destroyUnowned := by
  obtain ⟨bound, session, present, ended⟩ := lingers
  have owned : some p ∈ s.clients.getAllSessions := mem_getAllSessions.mpr ⟨c, bound⟩
  exact ⟨bound, session, (if_pos owned).trans present, ended⟩

/-- A session that has been stopped is never reported: whatever happens to
the server, its client stays registered with it, and what is sent to the
client is lost, until another session says HELLO for it. -/
theorem run_lingers (start last : Server) (events : List Event) (session : Session)
    (bound : start.clients.getSession c = .ok (some p)) (alive : start.objects p = some session)
    (stopped : session.disconnected = true) (run : exec step start events = some last)
    (spared : Guarded step (Spares c p) start events) : Lingers c p session.accepted session.disconnects last := by
  have initial : Lingers c p session.accepted session.disconnects start := ⟨bound, session, alive, stopped, rfl, rfl⟩
  refine exec_guarded_invariant (fun s event t lingers spared moved => ?_) run spared initial
  obtain ⟨after, handled, rfl⟩ := Option.map_eq_some_iff.mp moved
  exact (lingers.handler spared handled).destroyUnowned

/-- A server with one client. -/
def serving : Server where
  clients := ((ClientList.addSession 5 (some 7) {}).subscribe 5).2
  objects p := if p = 7 then some { socketOpen := true, started := true, reading := true } else none

/-- The server stops, the read of the session fails, and a message goes to all clients. -/
theorem serving_lingers : ∃ start last : Server, ∃ session, exec step serving [.stopServer fun _ => true] = some start ∧
    start.objects 7 = some session ∧
    exec step start [.readFailed 7, .broadcastToSubscribed [1] fun _ => true] = some last ∧
    last.calls = [.stop 7, .sendMsg 7 [1]] ∧ last.Lingers 5 7 session.accepted session.disconnects := by
  obtain ⟨start, between, last, session, stopping, alive, bound, stopped, first, second, calls⟩ :
      ∃ start between last session, exec step serving [.stopServer fun _ => true] = some start ∧
      start.objects 7 = some session ∧ start.clients.getSession 5 = .ok (some 7) ∧ session.disconnected = true ∧
      step start (.readFailed 7) = some between ∧
      step between (.broadcastToSubscribed [1] fun _ => true) = some last ∧
      last.calls = [.stop 7, .sendMsg 7 [1]] := ⟨_, _, _, _, rfl, rfl, rfl, rfl, rfl, rfl, rfl⟩
  have run : exec step start [.readFailed 7, .broadcastToSubscribed [1] fun _ => true] = some last :=
    exec_cons_of first (exec_cons_of second (exec_nil _ _))
  have spared : Guarded step (Spares 5 7) start [.readFailed 7, .broadcastToSubscribed [1] fun _ => true] :=
    guarded_cons trivial first (guarded_cons trivial second (guarded_nil _ _ _))
  have lingers := run_lingers start last _ session bound alive stopped run spared
  exact ⟨start, last, session, stopping, alive, run, calls, lingers⟩

end Server

end Stakan
