import Stakan.ClientList.Broadcast
import Stakan.TCPServer.SessionSilence
import Stakan.TCPServer.Takeover

namespace Stakan

namespace SessionCall

def session : SessionCall → SessionAddr
  | .sendMsg session _ => session
  | .stop session => session

/-- What the strand of the session runs for the call. -/
def event : SessionCall → Session.Event
  | .sendMsg _ message => .sendMsg message
  | .stop _ => .stop

def request : SessionCall → Session.Request
  | .sendMsg _ message => .sendMsg message
  | .stop _ => .stop

end SessionCall

/-- The server with the session objects, and what waits on the strand of
each. The closures there refer to the session weakly, and the pointer that
`OnAccept` returns is dropped: between handlers only the client list owns a session. -/
structure Server where
  clients : ClientList := {}
  objects : SessionAddr → Option Session := fun _ => none
  strands : SessionAddr → List Session.Event := fun _ => []
  acceptorOpen : Bool := true
  accepting : Bool := false
  calls : List SessionCall := []

namespace Server
open LabelledRun TCPServer

/-- The end of a handler. A session that nobody owns is destroyed, and what
waits on its strand will find nothing. -/
def destroyUnowned (s : Server) : Server := {
  s with
  objects := fun p => if some p ∈ s.clients.getAllSessions then s.objects p else none
  strands := fun p => if some p ∈ s.clients.getAllSessions then s.strands p else [] }

/-- An event on the strand of a session, which may report its disconnect to the
server. To a session that is gone nothing happens, as its closures find an
empty weak pointer. The buffer that a pending read was given is gone with the
session too, and a completion that still touches it is undefined behaviour;
here it is taken as having no effect, and the run goes on. -/
def perform (s : Server) (p : SessionAddr) (event : Session.Event) : Option Server :=
  match s.objects p with
  | none => some s
  | some session => do
    let after ← session.step event
    let clients := if after.disconnects = session.disconnects then s.clients
      else (handleDisconnect p s.clients).clients
    return { s with clients, objects := Function.update s.objects p (some after) }

/-- A call from outside the strand of the session: at once if the strand is free, otherwise later. -/
def dispatch (inline : SessionCall → Bool) (s : Server) (call : SessionCall) : Option Server :=
  let s := { s with calls := s.calls ++ [call] }
  if inline call && (s.strands call.session).isEmpty then s.perform call.session call.event
  else some { s with
    strands := Function.update s.strands call.session (s.strands call.session ++ [call.event]) }

def startServer (s : Server) : Server := { s with accepting := s.acceptorOpen }

/-- The acceptor is closed; its wait ends with an error. -/
def stopServer (inline : SessionCall → Bool) (s : Server) : Option Server :=
  (s.clients.getAllSessions.filterMap (Option.map SessionCall.stop)).foldlM (dispatch inline)
    { s with acceptorOpen := false }

/-- The handler of `async_accept`: a new session, then the next accept. -/
def onAccept (p : SessionAddr) (opened inline : Bool) (s : Server) : Option Server :=
  let made := { s with objects := Function.update s.objects p (some { socketOpen := opened }) }
  let started := if inline then made.perform p .start
    else some { made with strands := Function.update made.strands p [.start] }
  started.map fun s => { s with accepting := s.acceptorOpen }

/-- The handler of a read. Calls on the own session run at once, in the handler of the frame. -/
def processRead (p : SessionAddr) (inline : SessionCall → Bool) (session : Session) (s : Server) : Option Server := do
  let handled := handleMessage (session.readBuffer.take (session.readBuffer.idxOf (byte '\n') + 1)) p s.clients
  let own := handled.calls.filter fun call => call.session = p
  let throws := match handled.outcome with
    | .ok () => false
    | .error _ => true
  let s ← (handled.calls.filter fun call => call.session ≠ p).foldlM (dispatch inline)
    { s with clients := handled.clients, calls := s.calls ++ own }
  s.perform p (.readDone ⟨own.map SessionCall.request, throws⟩)

/-- A handler of the io_context, or a call of the broadcaster or of the owner of the server. -/
inductive Event
  | startServer
  | accept (p : SessionAddr) (opened error inline : Bool)
  | strand (p : SessionAddr)
  | receive (p : SessionAddr) (bytes : List UInt8)
  | readDone (p : SessionAddr) (inline : SessionCall → Bool)
  | readFailed (p : SessionAddr)
  | writeDone (p : SessionAddr) (i : Nat)
  | writeFailed (p : SessionAddr) (i : Nat)
  | broadcastToSubscribed (message : List UInt8) (inline : SessionCall → Bool)
  | broadcastToCertain (id : ClientId) (message : List UInt8) (inline : SessionCall → Bool)
  | stopServer (inline : SessionCall → Bool)

/-- The calls that a broadcast makes. If it throws, it makes none, and where it
follows a null pointer there is no state after it. -/
def broadcast (inline : SessionCall → Bool) (s : Server) : Except Failure (List SessionCall) → Option Server
  | .ok calls => calls.foldlM (dispatch inline) s
  | .error .undefinedBehaviour => none
  | .error _ => some s

/-- What a handler does before the sessions that it leaves without an owner are destroyed. -/
def handler (s : Server) : Event → Option Server
  | .startServer => some s.startServer
  | .accept p opened error inline =>
    if s.accepting = true ∧ s.objects p = none then
      if error then some { s with accepting := s.acceptorOpen } else s.onAccept p opened inline
    else none
  | .strand p => match s.strands p with
    | [] => none
    | event :: rest => perform { s with strands := Function.update s.strands p rest } p event
  | .receive p bytes => s.perform p (.receive bytes)
  | .readDone p inline => match s.objects p with
    | none => some s
    | some session => s.processRead p inline session
  | .readFailed p => s.perform p .readFailed
  | .writeDone p i => s.perform p (.writeDone i)
  | .writeFailed p i => s.perform p (.writeFailed i)
  | .broadcastToSubscribed message inline => s.broadcast inline (s.clients.broadcastToSubscribed message)
  | .broadcastToCertain id message inline => s.broadcast inline (s.clients.broadcastToCertain id message)
  | .stopServer inline => s.stopServer inline

def step (s : Server) (event : Event) : Option Server := (s.handler event).map destroyUnowned

/-- The client list owns the session. -/
def Owned (clients : ClientList) (p : SessionAddr) : Prop := ∃ c, clients.getSession c = .ok (some p)

theorem mem_getAllSessions {clients : ClientList} {p : SessionAddr} :
    some p ∈ clients.getAllSessions ↔ Owned clients p := by
  unfold ClientList.getAllSessions Owned
  simp only [List.mem_filter, List.mem_map, Option.isSome_some, and_true, ClientList.getSession_eq_ok]
  constructor
  · rintro ⟨⟨c, ctx⟩, entry, session⟩
    exact ⟨c, ctx, AList.mem_lookup_iff.mpr entry, session⟩
  · rintro ⟨c, ctx, registered, session⟩
    exact ⟨⟨c, ctx⟩, AList.mem_lookup_iff.mp registered, session⟩

/-- Clients that are registered stay so with the same session, or go. -/
def Fewer (clients after : ClientList) : Prop :=
  ∀ c ctx, after.clients.lookup c = some ctx → clients.clients.lookup c = some ctx

theorem Fewer.owned {clients after : ClientList} (fewer : Fewer clients after) {p : SessionAddr}
    (owned : Owned after p) : Owned clients p := by
  obtain ⟨c, bound⟩ := owned
  obtain ⟨ctx, registered, session⟩ := ClientList.getSession_eq_ok.mp bound
  exact ⟨c, ClientList.getSession_eq_ok.mpr ⟨ctx, fewer c ctx registered, session⟩⟩

theorem Fewer.hasClient {clients after : ClientList} (fewer : Fewer clients after) {c : ClientId}
    (registered : after.hasClient c = true) : clients.hasClient c = true := by
  obtain ⟨ctx, registered⟩ := Option.isSome_iff_exists.mp registered
  exact Option.isSome_iff_exists.mpr ⟨ctx, fewer c ctx registered⟩

theorem handleDisconnect_fewer (p : SessionAddr) (clients : ClientList) :
    Fewer clients (handleDisconnect p clients).clients := by
  intro c ctx registered
  unfold handleDisconnect at registered
  split at registered
  next => exact registered
  next id _ =>
    split at registered
    next => exact registered
    next =>
      split at registered
      next =>
        by_cases same : c = id
        · subst same
          rw [ClientList.removeSession, AList.lookup_erase] at registered
          contradiction
        · rwa [ClientList.removeSession, AList.lookup_erase_ne same] at registered
      next => exact registered

theorem supersede_session {session : SessionAddr} {previous : SessionPtr} {call : SessionCall}
    (member : call ∈ supersede session previous) : previous = some call.session := by
  cases previous with
  | none => simp [supersede] at member
  | some old =>
    simp only [supersede] at member
    split at member
    next => rcases List.mem_pair.mp member with rfl | rfl <;> rfl
    next => simp at member

/-- What a frame may bring about: its session is bound to a client that is
registered already, and calls go to it and to sessions that are owned. -/
structure Confined (session : SessionAddr) (clients : ClientList) (after : Handled) : Prop where
  owned : ∀ p, Owned after.clients p → p = session ∨ Owned clients p
  known : ∀ c, after.clients.hasClient c = true → clients.hasClient c = true
  calls : ∀ call ∈ after.calls, call.session = session ∨ Owned clients call.session

theorem handleMessage_confined (frame : List UInt8) (session : SessionAddr) (clients : ClientList) :
    Confined session clients (handleMessage frame session clients) := by
  obtain ⟨c, parsed⟩ := parseClientId_ok frame
  by_cases valid : c = 0
  · subst valid
    rw [handleMessage_refused parsed]
    exact ⟨fun _ => .inr, fun _ registered => registered, fun call member => by
      rw [List.mem_singleton.mp member]
      exact .inl rfl⟩
  · cases registered : clients.clients.lookup c with
    | none =>
      have unknown : clients.hasClient c = false := by rw [ClientList.hasClient, registered]; rfl
      rw [handleMessage_unregistered parsed valid unknown]
      exact ⟨fun _ => .inr, fun _ registered => registered, fun call member => by simp at member⟩
    | some ctx =>
      have taken := helloTaken_of_registered parsed valid registered session
      rw [handleMessage_registered parsed valid registered] at taken ⊢
      refine ⟨fun p owned => ?_, fun d known => ?_, fun call member => ?_⟩
      · obtain ⟨d, bound⟩ := owned
        by_cases same : d = c
        · subst same
          exact .inl (Option.some.inj (Except.ok.inj (bound.symm.trans taken.bound)))
        · exact .inr ⟨d, (ClientList.getSession_congr (taken.others d same)) ▸ bound⟩
      · by_cases same : d = c
        · rw [same, ClientList.hasClient, registered]
          rfl
        · rw [ClientList.hasClient, ← taken.others d same]
          exact known
      · rcases List.mem_append.mp member with old | answer
        · have bound : clients.getSession c = .ok (some call.session) :=
            ClientList.getSession_eq_ok.mpr ⟨ctx, registered, supersede_session old⟩
          exact .inr ⟨c, bound⟩
        · rw [List.mem_singleton.mp answer]
          exact .inl rfl

/-- What holds in the course of a handler: the sessions owned are alive, and
they and the clients are among those of the start, as are the receivers of the calls. -/
structure Within (start s : Server) : Prop where
  alive : ∀ p, Owned s.clients p → (s.objects p).isSome
  sessions : ∀ p, Owned s.clients p → (start.objects p).isSome
  known : ∀ c, s.clients.hasClient c = true → start.clients.hasClient c = true
  calls : ∀ call ∈ s.calls, (start.objects call.session).isSome

/-- What holds between handlers: no other session is alive. -/
structure Population (start s : Server) : Prop extends Within start s where
  owned : ∀ p, (s.objects p).isSome → Owned s.clients p

variable {start s t : Server}

theorem Within.destroyUnowned (within : Within start s) : Population start s.destroyUnowned := by
  refine ⟨⟨fun p owned => ?_, within.sessions, within.known, within.calls⟩, fun p alive => ?_⟩
  · have member : some p ∈ s.clients.getAllSessions := mem_getAllSessions.mpr owned
    simp only [Server.destroyUnowned, if_pos member]
    exact within.alive p owned
  · simp only [Server.destroyUnowned] at alive
    split at alive
    next member => exact mem_getAllSessions.mp member
    next => contradiction

/-- A session in its new state, and clients that may have gone. -/
theorem Within.update (within : Within start s) {clients : ClientList} (fewer : Fewer s.clients clients)
    (p : SessionAddr) (session : Session) :
    Within start { s with clients, objects := Function.update s.objects p (some session) } := by
  refine ⟨fun q owned => ?_, fun q owned => within.sessions q (fewer.owned owned),
    fun c registered => within.known c (fewer.hasClient registered), within.calls⟩
  dsimp only
  by_cases same : q = p
  · rw [same, Function.update_self]
    rfl
  · rw [Function.update_of_ne same]
    exact within.alive q (fewer.owned owned)

theorem Within.perform (within : Within start s) {p : SessionAddr} {event : Session.Event}
    (moved : s.perform p event = some t) : Within start t := by
  unfold Server.perform at moved
  split at moved
  next =>
    obtain rfl := Option.some.inj moved
    exact within
  next session alive =>
    obtain ⟨after, _, moved⟩ := Option.bind_eq_some_iff.mp moved
    obtain rfl := Option.some.inj moved
    refine within.update ?_ p after
    split
    next => exact fun _ _ registered => registered
    next => exact handleDisconnect_fewer p s.clients

theorem Within.dispatch (within : Within start s) {inline : SessionCall → Bool} {call : SessionCall}
    (receiver : (start.objects call.session).isSome) (moved : dispatch inline s call = some t) : Within start t := by
  have logged : Within start { s with calls := s.calls ++ [call] } := by
    refine ⟨within.alive, within.sessions, within.known, fun other member => ?_⟩
    rcases List.mem_append.mp member with past | here
    · exact within.calls other past
    · rwa [List.mem_singleton.mp here]
  simp only [Server.dispatch] at moved
  split at moved
  next => exact logged.perform moved
  next =>
    obtain rfl := Option.some.inj moved
    exact ⟨logged.alive, logged.sessions, logged.known, logged.calls⟩

theorem Within.dispatchAll (within : Within start s) {inline : SessionCall → Bool} {calls : List SessionCall}
    (receivers : ∀ call ∈ calls, (start.objects call.session).isSome)
    (moved : calls.foldlM (Server.dispatch inline) s = some t) : Within start t :=
  exec_invariant_of_forall_mem (fun _ _ _ within receiver moved => Within.dispatch within receiver moved) moved
    receivers within

theorem Within.broadcast (within : Within start s) {inline : SessionCall → Bool}
    {sent : Except Failure (List SessionCall)}
    (receivers : ∀ calls, sent = .ok calls → ∀ call ∈ calls, Owned s.clients call.session)
    (moved : s.broadcast inline sent = some t) : Within start t := by
  cases sent with
  | ok calls => exact within.dispatchAll (fun call member => within.sessions _ (receivers calls rfl call member)) moved
  | error failure =>
    cases failure with
    | undefinedBehaviour => contradiction
    | runtimeError | outOfRange =>
      obtain rfl := Option.some.inj moved
      exact within

theorem Within.onAccept (within : Within start s) {p : SessionAddr} {opened inline : Bool}
    (moved : s.onAccept p opened inline = some t) : Within start t := by
  obtain ⟨started, starts, rfl⟩ := Option.map_eq_some_iff.mp moved
  have made := within.update (fun _ _ registered => registered) p { socketOpen := opened }
  have done : Within start started := by
    split at starts
    next => exact made.perform starts
    next =>
      obtain rfl := Option.some.inj starts
      exact ⟨made.alive, made.sessions, made.known, made.calls⟩
  exact ⟨done.alive, done.sessions, done.known, done.calls⟩

theorem Population.processRead (population : Population start s) {p : SessionAddr} {inline : SessionCall → Bool}
    {session : Session} (alive : s.objects p = some session) (moved : s.processRead p inline session = some t) :
    Within start t := by
  obtain ⟨dispatched, others, moved⟩ := Option.bind_eq_some_iff.mp moved
  obtain ⟨owned, known, calls⟩ := handleMessage_confined
    (session.readBuffer.take (session.readBuffer.idxOf (byte '\n') + 1)) p s.clients
  have here : (start.objects p).isSome := population.sessions p (population.owned p (by rw [alive]; rfl))
  have receiver : ∀ q, q = p ∨ Owned s.clients q → (start.objects q).isSome := by
    rintro q (rfl | owned)
    · exact here
    · exact population.sessions q owned
  have handled : Within start { s with
      clients := (handleMessage (session.readBuffer.take (session.readBuffer.idxOf (byte '\n') + 1)) p s.clients).clients
      calls := s.calls ++ (handleMessage (session.readBuffer.take (session.readBuffer.idxOf (byte '\n') + 1)) p
        s.clients).calls.filter fun call => call.session = p } := by
    refine ⟨fun q bound => ?_, fun q bound => receiver q (owned q bound),
      fun c registered => population.known c (known c registered), fun call member => ?_⟩
    · rcases owned q bound with rfl | before
      · simp only [alive, Option.isSome_some]
      · exact population.alive q before
    · rcases List.mem_append.mp member with past | new
      · exact population.calls call past
      · exact receiver _ (calls call (List.mem_of_mem_filter new))
  have within := handled.dispatchAll (fun call member => receiver _ (calls call (List.mem_of_mem_filter member))) others
  exact within.perform moved

theorem Population.handler (population : Population start s) {event : Event} (moved : s.handler event = some t) :
    Within start t := by
  have within := population.toWithin
  cases event with
  | startServer =>
    obtain rfl := Option.some.inj moved
    exact ⟨within.alive, within.sessions, within.known, within.calls⟩
  | accept p opened error inline =>
    simp only [Server.handler] at moved
    split at moved
    next =>
      split at moved
      next =>
        obtain rfl := Option.some.inj moved
        exact ⟨within.alive, within.sessions, within.known, within.calls⟩
      next => exact within.onAccept moved
    next => contradiction
  | strand p =>
    simp only [Server.handler] at moved
    split at moved
    next => contradiction
    next event rest _ =>
      have taken : Within start { s with strands := Function.update s.strands p rest } :=
        ⟨within.alive, within.sessions, within.known, within.calls⟩
      exact taken.perform moved
  | receive | readFailed | writeDone | writeFailed => exact within.perform moved
  | readDone p inline =>
    simp only [Server.handler] at moved
    split at moved
    next =>
      obtain rfl := Option.some.inj moved
      exact within
    next session alive => exact population.processRead alive moved
  | broadcastToSubscribed message inline =>
    refine within.broadcast (fun calls sent call member => ?_) moved
    obtain ⟨session, subscribed, rfl⟩ := ClientList.mapM_send sent call member
    obtain ⟨entry, inside, same⟩ := List.mem_map.mp subscribed
    have registered := AList.mem_lookup_iff.mpr (List.mem_of_mem_filter inside)
    exact ⟨entry.1, ClientList.getSession_eq_ok.mpr ⟨entry.2, registered, same⟩⟩
  | broadcastToCertain id message inline =>
    refine within.broadcast (fun calls sent call member => ?_) moved
    obtain ⟨q, bound, rfl⟩ := ClientList.broadcastToCertain_ok sent
    rw [List.mem_singleton.mp member]
    exact ⟨id, bound⟩
  | stopServer inline =>
    have closed : Within start { s with acceptorOpen := false } :=
      ⟨within.alive, within.sessions, within.known, within.calls⟩
    refine closed.dispatchAll (fun call member => ?_) moved
    obtain ⟨session, listed, same⟩ := List.mem_filterMap.mp member
    obtain ⟨p, rfl, rfl⟩ := Option.map_eq_some_iff.mp same
    exact within.sessions p (mem_getAllSessions.mp listed)

/-- Whatever connections are accepted, the sessions alive between handlers are
those that the client list owned from the start, nobody else is registered,
and nothing is sent to anybody else. -/
theorem run_population (start : Server) (events : List Event) (last : Server)
    (owned : ∀ p, (start.objects p).isSome ↔ Owned start.clients p) (quiet : start.calls = [])
    (run : exec step start events = some last) : Population start last := by
  have initial : Population start start := by
    refine ⟨⟨fun p => (owned p).mpr, fun p => (owned p).mpr, fun _ known => known, fun call member => ?_⟩,
      fun p => (owned p).mp⟩
    rw [quiet] at member
    contradiction
  refine exec_invariant (fun s event t population moved => ?_) run initial
  obtain ⟨after, handled, rfl⟩ := Option.map_eq_some_iff.mp moved
  exact (population.handler handled).destroyUnowned

/-- A new server accepts two connections, whose sessions are gone before they
have started to read, and is asked to send to all. -/
theorem new_server_population : ∃ last : Server, Population {} last ∧ last.objects 7 = none ∧ last.calls = [] ∧
    last.accepting = true := by
  let events : List Event := [.startServer, .accept 7 true false false, .accept 8 true false false,
    .broadcastToSubscribed [1] fun _ => true]
  obtain ⟨last, run, facts⟩ : ∃ last, exec step {} events = some last ∧ last.objects 7 = none ∧ last.calls = [] ∧
      last.accepting = true := ⟨_, rfl, rfl, rfl, rfl⟩
  have none_owned : ∀ p : SessionAddr, ((none : Option Session).isSome = true) ↔ Owned {} p := fun p =>
    ⟨fun alive => by contradiction, fun ⟨c, bound⟩ => by contradiction⟩
  exact ⟨last, run_population {} events last none_owned rfl run, facts⟩

end Server

end Stakan
