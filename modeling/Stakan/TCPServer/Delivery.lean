import Stakan.TCPServer.SessionAccepts
import Stakan.TCPServer.SessionWrites
import Stakan.TCPServer.Stopped

namespace Stakan

namespace Session

/-- The message that an event asks the session to send. -/
def Event.message : Event → Option (List UInt8)
  | sendMsg message => some message
  | _ => none

/-- A session that is connected after some work was so before, has reported
nothing, and has its socket as it was. -/
structure StillUp (s t : Session) : Prop where
  disconnected : s.disconnected = false
  disconnects : t.disconnects = s.disconnects
  socketOpen : t.socketOpen = s.socketOpen

theorem StillUp.trans {s t u : Session} (first : StillUp s t) (second : StillUp t u) : StillUp s u :=
  ⟨first.disconnected, second.disconnects.trans first.disconnects, second.socketOpen.trans first.socketOpen⟩

theorem notifyDisconnectOnce_not_up {s : Session} (up : s.notifyDisconnectOnce.disconnected = false) : False := by
  rw [notifyDisconnectOnce_disconnected] at up
  contradiction

theorem stop_not_up {s : Session} (up : s.stop.disconnected = false) : False := by
  unfold stop at up
  split at up
  next down =>
    rw [down] at up
    contradiction
  next => contradiction

theorem read_stillUp {s t : Session} (done : s.read = t) (up : t.disconnected = false) : StillUp s t := by
  unfold read at done
  split at done
  next =>
    subst done
    exact (notifyDisconnectOnce_not_up up).elim
  next =>
    subst done
    exact ⟨up, rfl, rfl⟩

theorem write_stillUp {s t : Session} (done : s.write = t) (up : t.disconnected = false) : StillUp s t := by
  unfold write at done
  split at done
  next =>
    subst done
    exact (notifyDisconnectOnce_not_up up).elim
  next =>
    split at done <;> subst done <;> exact ⟨up, rfl, rfl⟩

theorem sendMsg_stillUp {message : List UInt8} {s t : Session} (done : s.sendMsg message = t)
    (up : t.disconnected = false) : StillUp s t := by
  unfold sendMsg at done
  split at done
  next =>
    subst done
    exact ⟨up, rfl, rfl⟩
  next =>
    dsimp only at done
    split at done
    next =>
      subst done
      exact ⟨up, rfl, rfl⟩
    next =>
      have started := write_stillUp done up
      exact ⟨started.disconnected, started.disconnects, started.socketOpen⟩

theorem processWrite_stillUp {error : Bool} {s t : Session} (done : processWrite error s = t)
    (up : t.disconnected = false) : StillUp s t := by
  unfold processWrite at done
  split at done
  next =>
    subst done
    exact (notifyDisconnectOnce_not_up up).elim
  next =>
    dsimp only at done
    split at done
    next =>
      subst done
      exact ⟨up, rfl, rfl⟩
    next =>
      have next := write_stillUp done up
      exact ⟨next.disconnected, next.disconnects, next.socketOpen⟩

theorem perform_stillUp {requests : List Request} {s t : Session} (done : requests.foldl perform s = t)
    (up : t.disconnected = false) : StillUp s t := by
  induction requests generalizing s with
  | nil =>
    subst done
    exact ⟨up, rfl, rfl⟩
  | cons request requests ih =>
    have rest := ih done
    refine StillUp.trans ?_ rest
    cases request with
    | sendMsg message => exact sendMsg_stillUp rfl rest.disconnected
    | stop => exact (stop_not_up rest.disconnected).elim

theorem processRead_stillUp {error : Bool} {count : Nat} {onData : OnData} {s t : Session}
    (done : processRead error count onData s = t) (up : t.disconnected = false) : StillUp s t := by
  unfold processRead at done
  split at done
  next =>
    subst done
    exact (notifyDisconnectOnce_not_up up).elim
  next =>
    dsimp only at done
    split at done
    next =>
      have handled := perform_stillUp done up
      exact ⟨handled.disconnected, handled.disconnects, handled.socketOpen⟩
    next =>
      have again := read_stillUp done up
      have handled := (perform_stillUp rfl again.disconnected).trans again
      exact ⟨handled.disconnected, handled.disconnects, handled.socketOpen⟩

theorem step_stillUp {s after : Session} {event : Event} (moved : step s event = some after)
    (up : after.disconnected = false) : StillUp s after := by
  cases moves_of_step moved with
  | start =>
    have started := read_stillUp rfl up
    exact ⟨started.disconnected, started.disconnects, started.socketOpen⟩
  | sendMsg => exact sendMsg_stillUp rfl up
  | stop => exact (stop_not_up up).elim
  | receive => exact ⟨up, rfl, rfl⟩
  | readDone | readFailed =>
    have read := processRead_stillUp rfl up
    exact ⟨read.disconnected, read.disconnects, read.socketOpen⟩
  | writeDone | writeFailed =>
    have written := processWrite_stillUp rfl up
    exact ⟨written.disconnected, written.disconnects, written.socketOpen⟩

/-- The texts that a session has accepted. -/
def texts (s : Session) : List (List UInt8) := s.accepted.map Payload.bytes

/-- What a connected session has accepted is handed to the socket, or waits behind the front of the queue. -/
theorem Consistent.texts_eq {s : Session} (consistent : Consistent s) (up : s.disconnected = false) :
    s.texts = (s.handed ++ s.messagesQueue.tail).map Payload.bytes := by
  rcases consistent.flowing up with ⟨_, queue, _, accepted⟩ | ⟨chunk, rest, _, queue, _, accepted⟩
  · rw [texts, accepted, queue, List.tail_nil, List.append_nil]
  · rw [texts, accepted, queue, List.tail_cons]

/-- A connected session takes every message, and gives none back. -/
theorem step_takes {s after : Session} {event : Event} (up : s.disconnected = false) (opened : s.socketOpen = true)
    (moved : step s event = some after) : s.texts ++ event.message.toList <+: after.texts := by
  cases event with
  | sendMsg message =>
    obtain rfl := Option.some.inj moved
    simp only [texts, sendMsg_takes up opened, Event.message, Option.toList_some, List.map_append, List.map_cons, List.map_nil,
      List.prefix_refl]
  | _ => simpa only [texts, Event.message, Option.toList_none, List.append_nil] using (step_accepted moved).map _

end Session

namespace Server
open LabelledRun TCPServer

/-- What a session has taken or is going to take: what it has handed to its
socket, what waits in its queue behind the front, and what waits on its strand. -/
def toward (p : SessionAddr) (s : Server) : List (List UInt8) :=
  (match s.objects p with
    | some session => (session.handed ++ session.messagesQueue.tail).map Payload.bytes
    | none => []) ++ (s.strands p).filterMap Session.Event.message

/-- The message that an event sends to the client. -/
def Event.sentTo (c : ClientId) : Event → Option (List UInt8)
  | broadcastToSubscribed message _ => some message
  | broadcastToCertain id message _ => if id = c then some message else none
  | _ => none

/-- The session is there, and connected. -/
def Up (p : SessionAddr) (s : Server) : Prop := ∃ session, s.objects p = some session ∧ session.disconnected = false

/-- As long as its session is connected the client is held by it, and what
was sent is accepted or waits on the strand. -/
structure Attends (c : ClientId) (p : SessionAddr) (orders : OrderSide × OrderSide) (sent : List (List UInt8))
    (session : Session) (s : Server) : Prop where
  consistent : session.Consistent
  opened : session.disconnected = false → session.socketOpen = true
  held : session.disconnected = false → HeldBy c p orders s.clients
  reached : session.disconnected = false →
    sent.Sublist (session.texts ++ (s.strands p).filterMap Session.Event.message)

def Reaches (c : ClientId) (p : SessionAddr) (orders : OrderSide × OrderSide) (sent : List (List UInt8)) (s : Server) :
    Prop := ∃ session, s.objects p = some session ∧ Attends c p orders sent session s

variable {c : ClientId} {p q : SessionAddr} {orders : OrderSide × OrderSide} {sent : List (List UInt8)}
  {session : Session} {s t : Server}

theorem Reaches.weaken {less : List (List UInt8)} (reaches : Reaches c p orders sent s) (fewer : less.Sublist sent) :
    Reaches c p orders less s := by
  obtain ⟨session, alive, consistent, opened, held, reached⟩ := reaches
  exact ⟨session, alive, consistent, opened, held, fun up => fewer.trans (reached up)⟩

/-- What does not touch the session, its strand or its client. -/
theorem Reaches.of_same (reaches : Reaches c p orders sent s) (objects : t.objects p = s.objects p)
    (strands : t.strands p = s.strands p) (kept : HeldBy c p orders s.clients → HeldBy c p orders t.clients) :
    Reaches c p orders sent t := by
  obtain ⟨session, alive, consistent, opened, held, reached⟩ := reaches
  refine ⟨session, objects.trans alive, consistent, opened, fun up => kept (held up), fun up => ?_⟩
  rw [strands]
  exact reached up

theorem filterMap_cons_toList {α β : Type} (f : α → Option β) (a : α) (as : List α) :
    (a :: as).filterMap f = (f a).toList ++ as.filterMap f := by
  rw [List.filterMap_cons]
  cases f a <;> rfl

/-- The session runs an event that has been taken off its strand, or was never there. -/
theorem Attends.perform {event : Session.Event} (alive : s.objects p = some session) (consistent : session.Consistent)
    (opened : session.disconnected = false → session.socketOpen = true)
    (held : session.disconnected = false → HeldBy c p orders s.clients)
    (reached : session.disconnected = false →
      sent.Sublist (session.texts ++ (event.message.toList ++ (s.strands p).filterMap Session.Event.message)))
    (moved : s.perform p event = some t) : Reaches c p orders sent t := by
  rw [Server.perform, alive] at moved
  obtain ⟨after, stepped, moved⟩ := Option.bind_eq_some_iff.mp moved
  obtain rfl := Option.some.inj moved
  refine ⟨after, Function.update_self .., consistent.step stepped, fun up => ?_, fun up => ?_, fun up => ?_⟩
  · have still := Session.step_stillUp stepped up
    rw [still.socketOpen]
    exact opened still.disconnected
  · have still := Session.step_stillUp stepped up
    simpa only [if_pos still.disconnects] using held still.disconnected
  · have still := Session.step_stillUp stepped up
    obtain ⟨more, taken⟩ := Session.step_takes still.disconnected (opened still.disconnected) stepped
    refine (reached still.disconnected).trans ?_
    rw [← taken, ← List.append_assoc]
    exact (List.sublist_append_left _ more).append (List.Sublist.refl _)

/-- An event that did not wait on the strand and brings no message. -/
theorem Reaches.perform_own (reaches : Reaches c p orders sent s) {event : Session.Event}
    (silent : event.message = none) (moved : s.perform p event = some t) : Reaches c p orders sent t := by
  obtain ⟨session, alive, consistent, opened, held, reached⟩ := reaches
  refine Attends.perform alive consistent opened held (fun up => ?_) moved
  rw [silent]
  exact reached up

theorem Reaches.perform_other (reaches : Reaches c p orders sent s) (other : q ≠ p) {event : Session.Event}
    (moved : s.perform q event = some t) : Reaches c p orders sent t := by
  unfold Server.perform at moved
  split at moved
  next =>
    obtain rfl := Option.some.inj moved
    exact reaches
  next =>
    obtain ⟨after, _, moved⟩ := Option.bind_eq_some_iff.mp moved
    obtain rfl := Option.some.inj moved
    refine reaches.of_same (Function.update_of_ne other.symm ..) rfl fun held => ?_
    dsimp only
    split
    next => exact held
    next => exact held.of_lookup (handleDisconnect_lookup held.bound other)

theorem Reaches.perform (reaches : Reaches c p orders sent s) {event : Session.Event} (silent : event.message = none)
    (moved : s.perform q event = some t) : Reaches c p orders sent t := by
  by_cases own : q = p
  · subst own
    exact reaches.perform_own silent moved
  · exact reaches.perform_other own moved

/-- The message that a call brings to a session. -/
def callTo (p : SessionAddr) (call : SessionCall) : List (List UInt8) :=
  if call.session = p then call.event.message.toList else []

/-- What a call brings joins what was sent before, whether it is made at once or waits. -/
theorem Reaches.dispatch (reaches : Reaches c p orders sent s) {inline : SessionCall → Bool} {call : SessionCall}
    (moved : Server.dispatch inline s call = some t) : Reaches c p orders (sent ++ callTo p call) t := by
  simp only [Server.dispatch] at moved
  by_cases own : call.session = p
  · obtain ⟨session, alive, consistent, opened, held, reached⟩ := reaches
    rw [callTo, if_pos own]
    rw [own] at moved
    split at moved
    next free =>
      have empty : s.strands p = [] := List.isEmpty_iff.mp (Bool.and_eq_true_iff.mp free).2
      refine Attends.perform (s := { s with calls := s.calls ++ [call] }) alive consistent opened held
        (fun up => ?_) moved
      have before := reached up
      simp only [empty, List.filterMap_nil, List.append_nil] at before ⊢
      exact before.append (List.Sublist.refl _)
    next =>
      obtain rfl := Option.some.inj moved
      refine ⟨session, alive, consistent, opened, held, fun up => ?_⟩
      dsimp only
      rw [Function.update_self, List.filterMap_append, ← List.append_assoc]
      refine (reached up).append ?_
      rw [← List.append_nil call.event.message.toList, filterMap_cons_toList, List.filterMap_nil]
  · rw [callTo, if_neg own, List.append_nil]
    have logged : Reaches c p orders sent { s with calls := s.calls ++ [call] } := reaches.of_same rfl rfl id
    split at moved
    next => exact logged.perform_other own moved
    next =>
      obtain rfl := Option.some.inj moved
      exact logged.of_same rfl (Function.update_of_ne (Ne.symm own) ..) id

theorem Reaches.dispatchAll (reaches : Reaches c p orders sent s) {inline : SessionCall → Bool}
    {calls : List SessionCall} (moved : calls.foldlM (Server.dispatch inline) s = some t) :
    Reaches c p orders (sent ++ calls.flatMap (callTo p)) t := by
  induction calls generalizing s sent with
  | nil =>
    obtain rfl := Option.some.inj moved
    rwa [List.flatMap_nil, List.append_nil]
  | cons call calls ih =>
    obtain ⟨between, first, rest⟩ := exec_cons_split moved
    rw [List.flatMap_cons, ← List.append_assoc]
    exact ih (reaches.dispatch first) rest

/-- A call that is made reaches its session, whatever other calls are made before and after it. -/
theorem Reaches.dispatchOne (reaches : Reaches c p orders sent s) {inline : SessionCall → Bool}
    {calls : List SessionCall} {message : List UInt8} (member : .sendMsg p message ∈ calls)
    (moved : calls.foldlM (Server.dispatch inline) s = some t) : Reaches c p orders (sent ++ [message]) t := by
  refine (reaches.dispatchAll moved).weaken ((List.Sublist.refl _).append ?_)
  rw [List.singleton_sublist, List.mem_flatMap]
  refine ⟨.sendMsg p message, member, ?_⟩
  simp only [callTo, SessionCall.session, if_true, SessionCall.event, Session.Event.message, Option.toList_some,
    List.mem_singleton]

theorem Reaches.held (reaches : Reaches c p orders sent s) (up : Up p s) : HeldBy c p orders s.clients := by
  obtain ⟨session, alive, attends⟩ := reaches
  obtain ⟨_, present, connected⟩ := up
  obtain rfl := Option.some.inj (alive.symm.trans present)
  exact attends.held connected

/-- A message for all reaches the session of a client that is subscribed. -/
theorem Reaches.broadcastToSubscribed (reaches : Reaches c p orders sent s) (up : Up p s)
    {inline : SessionCall → Bool} {message : List UInt8}
    (moved : s.broadcast inline (s.clients.broadcastToSubscribed message) = some t) :
    Reaches c p orders (sent ++ [message]) t := by
  have held := reaches.held up
  unfold ClientList.broadcastToSubscribed at moved
  rcases ClientList.broadcast_cases message s.clients.getSubscribedSessions with failed | ⟨calls, made, all⟩
  · rw [failed] at moved
    contradiction
  · rw [made] at moved
    have listed := ClientList.mem_getSubscribedSessions held.bound held.subscribed
    exact reaches.dispatchOne (all p listed) moved

theorem Reaches.broadcastToCertain (reaches : Reaches c p orders sent s) (up : Up p s) {inline : SessionCall → Bool}
    {id : ClientId} {message : List UInt8}
    (moved : s.broadcast inline (s.clients.broadcastToCertain id message) = some t) :
    Reaches c p orders (sent ++ (if id = c then some message else none).toList) t := by
  split
  next same =>
    subst same
    rw [ClientList.broadcastToCertain, (reaches.held up).bound] at moved
    exact reaches.dispatchOne List.mem_cons_self moved
  next =>
    rw [Option.toList_none, List.append_nil]
    cases made : s.clients.broadcastToCertain id message with
    | ok calls =>
      rw [made] at moved
      exact (reaches.dispatchAll moved).weaken (List.sublist_append_left _ _)
    | error failure =>
      rw [made] at moved
      cases failure with
      | undefinedBehaviour => contradiction
      | runtimeError | outOfRange =>
        obtain rfl := Option.some.inj moved
        exact reaches

theorem Reaches.onAccept (reaches : Reaches c p orders sent s) {opened inline : Bool} (fresh : s.objects q = none)
    (moved : s.onAccept q opened inline = some t) : Reaches c p orders sent t := by
  have other : q ≠ p := by
    rintro rfl
    obtain ⟨session, alive, _⟩ := reaches
    rw [fresh] at alive
    contradiction
  have made : Reaches c p orders sent
      { s with objects := Function.update s.objects q (some { socketOpen := opened }) } :=
    reaches.of_same (Function.update_of_ne other.symm ..) rfl id
  obtain ⟨started, starts, rfl⟩ := Option.map_eq_some_iff.mp moved
  have done : Reaches c p orders sent started := by
    split at starts
    next => exact made.perform_other other starts
    next =>
      obtain rfl := Option.some.inj starts
      exact made.of_same rfl (Function.update_of_ne other.symm ..) id
  exact done.of_same rfl rfl id

theorem handleMessage_held {frame : List UInt8} {clients : ClientList} (held : HeldBy c p orders clients)
    (spared : Hello c frame → q = p) : HeldBy c p orders (handleMessage frame q clients).clients := by
  rcases handleMessage_cases frame q clients with same | ⟨d, hello, taken⟩
  · rwa [same]
  · by_cases own : d = c
    · subst own
      obtain rfl := spared hello
      exact ⟨taken.bound, taken.subscribed, taken.orders.trans held.orders⟩
    · exact held.of_lookup (taken.others c (Ne.symm own))

theorem Reaches.processRead (reaches : Reaches c p orders sent s) {inline : SessionCall → Bool} {reader : Session}
    (spared : Hello c (reader.readBuffer.take (reader.readBuffer.idxOf (byte '\n') + 1)) → q = p)
    (moved : s.processRead q inline reader = some t) : Reaches c p orders sent t := by
  obtain ⟨dispatched, others, moved⟩ := Option.bind_eq_some_iff.mp moved
  have rest : Reaches c p orders sent dispatched := by
    refine Reaches.weaken (Reaches.dispatchAll ?_ others) (List.sublist_append_left _ _)
    exact reaches.of_same rfl rfl fun held => handleMessage_held held spared
  exact rest.perform rfl moved

/-- The next event on the strand of the session, or of another one. -/
theorem Reaches.strand (reaches : Reaches c p orders sent s) {event : Session.Event} {rest : List Session.Event}
    (waiting : s.strands q = event :: rest)
    (moved : Server.perform { s with strands := Function.update s.strands q rest } q event = some t) :
    Reaches c p orders sent t := by
  by_cases own : q = p
  · subst own
    obtain ⟨session, alive, consistent, opened, held, reached⟩ := reaches
    refine Attends.perform (s := { s with strands := Function.update s.strands q rest }) alive consistent opened held
      (fun up => ?_) moved
    dsimp only
    rw [Function.update_self, ← filterMap_cons_toList, ← waiting]
    exact reached up
  · have taken : Reaches c p orders sent { s with strands := Function.update s.strands q rest } :=
      reaches.of_same rfl (Function.update_of_ne (Ne.symm own) ..) id
    exact taken.perform_other own moved

theorem Reaches.handler (reaches : Reaches c p orders sent s) {event : Event} (spared : Spares c p s event)
    (up : Up p s) (moved : s.handler event = some t) : Reaches c p orders (sent ++ (event.sentTo c).toList) t := by
  have unchanged : event.sentTo c = none → Reaches c p orders sent t →
      Reaches c p orders (sent ++ (event.sentTo c).toList) t := by
    intro silent after
    rwa [silent, Option.toList_none, List.append_nil]
  cases event with
  | broadcastToSubscribed => exact reaches.broadcastToSubscribed up moved
  | broadcastToCertain => exact reaches.broadcastToCertain up moved
  | startServer =>
    refine unchanged rfl ?_
    obtain rfl := Option.some.inj moved
    exact reaches.of_same rfl rfl id
  | accept q =>
    refine unchanged rfl ?_
    simp only [Server.handler] at moved
    split at moved
    next free =>
      split at moved
      next =>
        obtain rfl := Option.some.inj moved
        exact reaches.of_same rfl rfl id
      next => exact reaches.onAccept free.2 moved
    next => contradiction
  | strand q =>
    refine unchanged rfl ?_
    simp only [Server.handler] at moved
    split at moved
    next => contradiction
    next waiting => exact reaches.strand waiting moved
  | receive | readFailed | writeDone | writeFailed => exact unchanged rfl (reaches.perform rfl moved)
  | readDone q =>
    refine unchanged rfl ?_
    simp only [Server.handler] at moved
    split at moved
    next =>
      obtain rfl := Option.some.inj moved
      exact reaches
    next reader present => exact reaches.processRead (spared reader present) moved
  | stopServer =>
    have closed : Reaches c p orders sent { s with acceptorOpen := false } := reaches.of_same rfl rfl id
    exact unchanged rfl ((closed.dispatchAll moved).weaken (List.sublist_append_left _ _))

/-- A session that is there after the handler is one that was not destroyed. -/
theorem Reaches.destroyUnowned (reaches : Reaches c p orders sent s) (up : Up p s.destroyUnowned) :
    Reaches c p orders sent s.destroyUnowned := by
  obtain ⟨_, present, _⟩ := up
  simp only [Server.destroyUnowned] at present
  split at present
  next owned => exact reaches.of_same (if_pos owned) (if_pos owned) id
  next => contradiction

theorem Reaches.run {events : List Event} {last : Server} (reaches : Reaches c p orders sent s)
    (run : exec step s events = some last) (spared : Guarded step (Spares c p) s events)
    (up : Always step (Up p) s events) :
    Reaches c p orders (sent ++ events.filterMap (Event.sentTo c)) last := by
  induction events generalizing s sent with
  | nil =>
    obtain rfl := Option.some.inj run
    rwa [List.filterMap_nil, List.append_nil]
  | cons event events ih =>
    obtain ⟨next, moved, rest⟩ := exec_cons_split run
    obtain ⟨after, handled, rfl⟩ := Option.map_eq_some_iff.mp moved
    have first := reaches.handler spared.head (up [] _ s rfl rfl) handled
    have still := first.destroyUnowned (up [event] events _ rfl (by rw [exec_cons, moved]; rfl))
    have later := ih still rest (spared.tail moved) (up.tail moved)
    rwa [List.append_assoc, ← filterMap_cons_toList] at later

theorem toward_eq {session : Session} (alive : s.objects p = some session) (consistent : session.Consistent)
    (up : session.disconnected = false) :
    s.toward p = session.texts ++ (s.strands p).filterMap Session.Event.message := by
  rw [toward, alive, consistent.texts_eq up]

/-- As long as the session of a subscribed client is connected, and nobody
else says HELLO for the client, all that is sent to it is handed to the
socket or on its way there, behind what was sent before. -/
theorem run_losesNothing (start last : Server) (events : List Event) (session : Session)
    (alive : start.objects p = some session) (consistent : session.Consistent) (opened : session.socketOpen = true)
    (held : HeldBy c p orders start.clients) (run : exec step start events = some last)
    (spared : Guarded step (Spares c p) start events) (up : Always step (Up p) start events) :
    (start.toward p ++ events.filterMap (Event.sentTo c)).Sublist (last.toward p) ∧
      HeldBy c p orders last.clients := by
  obtain ⟨_, present, connected⟩ := up [] events start rfl rfl
  obtain rfl := Option.some.inj (alive.symm.trans present)
  have initial : Reaches c p orders (start.toward p) start := by
    refine ⟨session, alive, consistent, fun _ => opened, fun _ => held, fun _ => ?_⟩
    rw [toward_eq alive consistent connected]
  have reaches := initial.run run spared up
  have still := up events [] last (List.append_nil events).symm run
  refine ⟨?_, reaches.held still⟩
  obtain ⟨after, present, sound, _, _, reached⟩ := reaches
  obtain ⟨_, same, connected⟩ := still
  obtain rfl := Option.some.inj (present.symm.trans same)
  rw [toward_eq present sound connected]
  exact reached connected

/-- A message for all waits on the strand, another one for the client joins it, and both are handed to the socket. -/
def deliveries : List Event :=
  [.broadcastToSubscribed [1] fun _ => false, .broadcastToCertain 5 [2] fun _ => true, .strand 7, .strand 7,
    .writeDone 7 0]

theorem serving_losesNothing : ∃ last : Server, ∃ session, exec step serving deliveries = some last ∧
    last.objects 7 = some session ∧ session.handed.map Payload.bytes = [[1], [2]] ∧
    (serving.toward 7 ++ deliveries.filterMap (Event.sentTo 5)).Sublist (last.toward 7) ∧
    HeldBy 5 7 ({}, {}) last.clients := by
  obtain ⟨last, session, run, alive, handed⟩ : ∃ last session, exec step serving deliveries = some last ∧
      last.objects 7 = some session ∧ session.handed.map Payload.bytes = [[1], [2]] := ⟨_, _, rfl, rfl, rfl⟩
  have consistent : Session.Consistent { socketOpen := true, started := true, reading := true } :=
    (Session.initial_consistent true).withReads true true [] []
  have spared : Guarded step (Spares 5 7) serving deliveries :=
    guarded_cons trivial rfl (guarded_cons trivial rfl (guarded_cons trivial rfl (guarded_cons trivial rfl
      (guarded_cons trivial rfl (guarded_nil _ _ _)))))
  have up : Always step (Up 7) serving deliveries :=
    always_cons ⟨_, rfl, rfl⟩ rfl (always_cons ⟨_, rfl, rfl⟩ rfl (always_cons ⟨_, rfl, rfl⟩ rfl
      (always_cons ⟨_, rfl, rfl⟩ rfl (always_cons ⟨_, rfl, rfl⟩ rfl (always_nil ⟨_, rfl, rfl⟩)))))
  have kept := run_losesNothing serving last deliveries _ rfl consistent rfl ⟨rfl, rfl, rfl⟩ run spared up
  exact ⟨last, session, run, alive, handed, kept⟩

end Server

end Stakan
