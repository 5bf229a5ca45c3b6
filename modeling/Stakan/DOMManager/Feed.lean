import Stakan.Broadcaster.DeliveryOrder
import Stakan.DOMManager.Basic
import Stakan.TCPServer.SessionAccepts
import Stakan.TCPServer.SessionWrites

namespace Stakan
open LabelledRun

namespace DOMManager

theorem enqueue_enqueued (clientId : Option ClientId) (fetched : Fetched) (s : DOMManager) :
    s.enqueued <+: (s.enqueue clientId fetched).enqueued := by
  unfold enqueue
  split
  next => exact List.prefix_append _ _
  next => exact List.prefix_refl _
  next => exact List.prefix_refl _

theorem scheduleNextBroadcast_enqueued (terms : BroadcastTerms) (s : DOMManager) :
    (scheduleNextBroadcast terms s).enqueued = s.enqueued := by
  unfold scheduleNextBroadcast
  split <;> rfl

theorem startBroadcasting_enqueued (terms : BroadcastTerms) (s : DOMManager) :
    (startBroadcasting terms s).enqueued = s.enqueued := by
  unfold startBroadcasting
  split
  next => rfl
  next => exact scheduleNextBroadcast_enqueued _ _

/-- A handler only adds to the commands for the broadcaster. -/
theorem step_enqueued {s after : DOMManager} {event : Event} (moved : step s event = some after) :
    s.enqueued <+: after.enqueued := by
  cases event with
  | handle cmd fetched =>
    obtain rfl := Option.some.inj moved
    cases cmd with
    | addOrder | removeOrder | stopBroadcast => exact List.prefix_refl _
    | sendSnapshotToClient clientId => exact enqueue_enqueued _ _ _
    | startBroadcast terms =>
      rw [handle]
      split
      next => exact List.prefix_refl _
      next =>
        simp only [startBroadcasting_enqueued, List.prefix_refl]
  | expire =>
    simp only [step] at moved
    split at moved
    next => contradiction
    next =>
      obtain rfl := Option.some.inj moved
      exact List.prefix_refl _
  | complete i fetched =>
    obtain ⟨completion, _, moved⟩ := Option.bind_eq_some_iff.mp moved
    obtain rfl := Option.some.inj moved
    rw [onTimer]
    split
    next => exact List.prefix_refl _
    next =>
      rw [scheduleNextBroadcast_enqueued]
      exact enqueue_enqueued none fetched { s with
        completions := s.completions.eraseIdx i, trace := s.trace ++ [.sent completion.wait.useTestBroadcast] }

end DOMManager

/-- The manager, the broadcaster that it feeds, and the sessions at the other
end. A message for a session waits on the session's strand, with the command
that it comes from. `sources` keeps, for each message that a session has
accepted, the command that it comes from, or none if it is another's. -/
structure Feed where
  manager : DOMManager := {}
  broadcaster : Broadcaster
  strands : SessionAddr → List (CommandPtr × List UInt8) := fun _ => []
  sessions : SessionAddr → Session
  sources : SessionAddr → List (Option CommandPtr) := fun _ => []

namespace Feed

/-- A handler of the manager, a step of the broadcaster's worker, the next
posted handler, a call on the client list, or work on a session's strand. -/
inductive Event
  | manager (event : DOMManager.Event)
  | pop
  | post
  | execute
  | client (op : ClientListOp)
  | send (session : SessionAddr)
  | session (session : SessionAddr) (event : Session.Event)

/-- What a call of the broadcaster brings to a session. -/
def toward (session : SessionAddr) (delivery : Delivery) : Option (CommandPtr × List UInt8) :=
  match delivery.call with
  | .sendMsg receiver message => if receiver = session then some (delivery.origin, message) else none
  | .stop _ => none

/-- A session after an event in which it may have accepted messages of the source. -/
def settle (s : Feed) (session : SessionAddr) (state : Session) (source : Option CommandPtr) : Feed :=
  let more := state.accepted.length - (s.sessions session).accepted.length
  { s with
    sessions := Function.update s.sessions session state
    sources := Function.update s.sources session (s.sources session ++ List.replicate more source) }

/-- What the manager enqueues is pushed at once, in the handler that makes it. -/
def step (s : Feed) : Event → Option Feed
  | .manager event => do
    let manager ← s.manager.step event
    let made := manager.enqueued.drop s.manager.enqueued.length
    let broadcaster ← exec Broadcaster.step s.broadcaster (made.map .enqueue)
    return { s with manager, broadcaster }
  | .pop => do
    let broadcaster ← s.broadcaster.step .pop
    return { s with broadcaster }
  | .post => do
    let broadcaster ← s.broadcaster.step .post
    return { s with broadcaster }
  | .execute => do
    let broadcaster ← s.broadcaster.step (.execute 0)
    let new := broadcaster.delivered.drop s.broadcaster.delivered.length
    return { s with broadcaster, strands := fun session => s.strands session ++ new.filterMap (toward session) }
  | .client op => do
    let broadcaster ← s.broadcaster.step (.clientCall op)
    return { s with broadcaster }
  | .send session => match s.strands session with
    | [] => none
    | (origin, message) :: rest =>
      let s := { s with strands := Function.update s.strands session rest }
      some (s.settle session ((s.sessions session).sendMsg message) (some origin))
  | .session session event => do
    let state ← (s.sessions session).step event
    return s.settle session state none

/-- The messages of the broadcaster that a session has accepted, with their commands. -/
def taken (s : Feed) (session : SessionAddr) : List (CommandPtr × List UInt8) :=
  ((s.sources session).zip (s.sessions session).accepted).filterMap fun (source, payload) =>
    source.map fun origin => (origin, payload.bytes)

/-- What is to hold of a session: what it has accepted and what waits on its
strand is part of what the broadcaster has sent to it, in that order. -/
structure Served (s : Feed) (session : SessionAddr) : Prop where
  consistent : (s.sessions session).Consistent
  aligned : (s.sources session).length = (s.sessions session).accepted.length
  inOrder : (s.taken session ++ s.strands session).Sublist (s.broadcaster.delivered.filterMap (toward session))

structure Invariant (s : Feed) : Prop where
  ordered : s.broadcaster.Ordered
  pushed : s.broadcaster.trace.pushed.map CommandPtr.cmd = s.manager.enqueued
  served : ∀ session, s.Served session

/-- With what it has accepted since, a session has taken what came from a command. -/
theorem taken_settle (s : Feed) (session : SessionAddr) (state : Session) (source : Option CommandPtr)
    (aligned : (s.sources session).length = (s.sessions session).accepted.length) {new : List Payload}
    (accepted : state.accepted = (s.sessions session).accepted ++ new) :
    (s.settle session state source).taken session = s.taken session ++
      new.filterMap fun payload => source.map fun origin => (origin, payload.bytes) := by
  have more : state.accepted.length - (s.sessions session).accepted.length = new.length := by
    rw [accepted, List.length_append, Nat.add_sub_cancel_left]
  have paired : (List.replicate new.length source).zip new = new.map fun payload => (source, payload) := by
    rw [← List.map_const', List.zip, List.zipWith_map_left, List.zipWith_self]
  simp only [taken, settle, Function.update_self, more]
  rw [accepted, List.zip_append aligned, List.filterMap_append, paired, List.filterMap_map]
  rfl

theorem settle_aligned (s : Feed) (session : SessionAddr) (state : Session) (source : Option CommandPtr)
    (aligned : (s.sources session).length = (s.sessions session).accepted.length)
    (accepted : (s.sessions session).accepted <+: state.accepted) :
    ((s.settle session state source).sources session).length =
      ((s.settle session state source).sessions session).accepted.length := by
  have shorter := accepted.length_le
  simp only [settle, Function.update_self, List.length_append, List.length_replicate, aligned]
  omega

/-- What happens to one session does not touch another. -/
theorem Served.of_other {s after : Feed} {session : SessionAddr} (served : s.Served session)
    (state : after.sessions session = s.sessions session) (sources : after.sources session = s.sources session)
    (strand : after.strands session = s.strands session) (broadcaster : after.broadcaster = s.broadcaster) :
    after.Served session := by
  obtain ⟨consistent, aligned, inOrder⟩ := served
  refine ⟨by rwa [state], by rwa [state, sources], ?_⟩
  rw [taken, state, sources, strand, broadcaster]
  exact inOrder

/-- What the broadcaster does without sending anything touches no session. -/
theorem Served.of_delivered {s : Feed} {session : SessionAddr} (served : s.Served session) {broadcaster : Broadcaster}
    (delivered : broadcaster.delivered = s.broadcaster.delivered) : { s with broadcaster }.Served session :=
  ⟨served.consistent, served.aligned, delivered ▸ served.inOrder⟩

/-- A session that takes more of what the broadcaster has sent to it. -/
theorem Served.settle {s : Feed} {session : SessionAddr} (served : s.Served session) {state : Session}
    (consistent : state.Consistent) (source : Option CommandPtr) {new : List Payload}
    (accepted : state.accepted = (s.sessions session).accepted ++ new)
    (inOrder : (s.taken session ++ (new.filterMap fun payload => source.map fun origin => (origin, payload.bytes)) ++
      s.strands session).Sublist (s.broadcaster.delivered.filterMap (toward session))) (other : SessionAddr)
    (others : ∀ other, other ≠ session → s.Served other) : (s.settle session state source).Served other := by
  by_cases same : other = session
  · subst same
    refine ⟨?_, settle_aligned s other state source served.aligned ⟨new, accepted.symm⟩, ?_⟩
    · simpa only [Feed.settle, Function.update_self] using consistent
    · rw [taken_settle s other state source served.aligned accepted]
      exact inOrder
  · refine (others other same).of_other ?_ ?_ rfl rfl
    · exact Function.update_of_ne same _ _
    · exact Function.update_of_ne same _ _

theorem exec_enqueue {commands : List BroadcastCommand} {s after : Broadcaster} (ordered : s.Ordered)
    (run : exec Broadcaster.step s (commands.map .enqueue) = some after) :
    after.Ordered ∧ after.trace.pushed.map CommandPtr.cmd = s.trace.pushed.map CommandPtr.cmd ++ commands ∧
      after.delivered = s.delivered := by
  induction commands generalizing s with
  | nil =>
    obtain rfl := Option.some.inj run
    exact ⟨ordered, by simp, rfl⟩
  | cons cmd commands ih =>
    obtain ⟨next, moved, rest⟩ := exec_cons_split run
    obtain ⟨still, pushed, delivered⟩ := ih (ordered.enqueue moved) rest
    obtain rfl := Broadcaster.step_enqueue moved
    refine ⟨still, ?_, delivered⟩
    rw [pushed]
    simp [CommandQueue.Trace.next]

theorem Invariant.step {s after : Feed} {event : Event} (invariant : s.Invariant)
    (moved : step s event = some after) : after.Invariant := by
  obtain ⟨ordered, pushed, served⟩ := invariant
  cases event with
  | manager event =>
    obtain ⟨manager, managed, moved⟩ := Option.bind_eq_some_iff.mp moved
    obtain ⟨broadcaster, run, moved⟩ := Option.bind_eq_some_iff.mp moved
    obtain rfl := Option.some.inj moved
    obtain ⟨new, longer⟩ := DOMManager.step_enqueued managed
    obtain ⟨still, enqueued, delivered⟩ := exec_enqueue ordered run
    refine ⟨still, ?_, fun session => ?_⟩
    · rw [enqueued, pushed, ← longer, List.drop_left]
    · obtain ⟨consistent, aligned, inOrder⟩ := (served session).of_delivered delivered
      exact ⟨consistent, aligned, inOrder⟩
  | pop =>
    obtain ⟨broadcaster, moving, moved⟩ := Option.bind_eq_some_iff.mp moved
    obtain rfl := Option.some.inj moved
    have still := ordered.pop moving
    obtain ⟨front, rest, _, _, rfl⟩ := Broadcaster.step_pop moving
    exact ⟨still, pushed, fun session => (served session).of_delivered rfl⟩
  | post =>
    obtain ⟨broadcaster, moving, moved⟩ := Option.bind_eq_some_iff.mp moved
    obtain rfl := Option.some.inj moved
    have still := ordered.post moving
    obtain ⟨cmd, _, rfl⟩ := Broadcaster.step_post moving
    exact ⟨still, pushed, fun session => (served session).of_delivered rfl⟩
  | execute =>
    obtain ⟨broadcaster, moving, moved⟩ := Option.bind_eq_some_iff.mp moved
    obtain rfl := Option.some.inj moved
    have still := ordered.execute moving
    obtain ⟨new, same, delivered⟩ : ∃ new, broadcaster.trace = s.broadcaster.trace ∧
        broadcaster.delivered = s.broadcaster.delivered ++ new := by
      obtain ⟨cmd, _, ⟨calls, _, rfl⟩ | ⟨failure, _, _, rfl⟩ | ⟨_, rfl⟩⟩ := Broadcaster.step_execute moving
      · exact ⟨_, rfl, rfl⟩
      · exact ⟨[], rfl, (List.append_nil _).symm⟩
      · exact ⟨[], rfl, (List.append_nil _).symm⟩
    refine ⟨still, same ▸ pushed, fun session => ?_⟩
    obtain ⟨consistent, aligned, inOrder⟩ := served session
    refine ⟨consistent, aligned, ?_⟩
    simp only [delivered, List.drop_left, List.filterMap_append]
    rw [← List.append_assoc]
    exact inOrder.append (List.Sublist.refl _)
  | client op =>
    obtain ⟨broadcaster, moving, moved⟩ := Option.bind_eq_some_iff.mp moved
    obtain rfl := Option.some.inj moved
    have firstPosted : Broadcaster.FirstPosted s.broadcaster (.clientCall op) := trivial
    have still := ordered.step firstPosted moving
    obtain ⟨clients, _, rfl⟩ := Broadcaster.step_clientCall moving
    exact ⟨still, pushed, fun session => (served session).of_delivered rfl⟩
  | send session =>
    simp only [Feed.step] at moved
    split at moved
    next => contradiction
    next origin message rest waiting =>
      obtain rfl := Option.some.inj moved
      let fetched : Feed := { s with strands := Function.update s.strands session rest }
      obtain ⟨consistent, aligned, inOrder⟩ := served session
      rw [waiting] at inOrder
      have left : fetched.strands session = rest := Function.update_self ..
      have fewer : (fetched.taken session ++ rest).Sublist
          (fetched.broadcaster.delivered.filterMap (toward session)) :=
        (((List.sublist_cons_self _ rest).append_left _).trans inOrder)
      have others : ∀ other, other ≠ session → fetched.Served other := fun other different =>
        (served other).of_other rfl rfl (Function.update_of_ne different _ _) rfl
      have here : fetched.Served session := ⟨consistent, aligned, left.symm ▸ fewer⟩
      refine ⟨ordered, pushed, fun other => ?_⟩
      have sent := Session.sendMsg_consistent consistent message
      rcases Session.sendMsg_accepted message (s.sessions session) with same | more
      · refine here.settle sent (some origin) (same.trans (List.append_nil _).symm) ?_ other others
        rw [left]
        simpa using fewer
      · refine here.settle sent (some origin) more ?_ other others
        rw [left, List.append_assoc]
        exact inOrder
  | session session event =>
    obtain ⟨state, moving, moved⟩ := Option.bind_eq_some_iff.mp moved
    obtain rfl := Option.some.inj moved
    obtain ⟨new, accepted⟩ := Session.step_accepted moving
    refine ⟨ordered, pushed, fun other => ?_⟩
    refine (served session).settle ((served session).consistent.step moving) none accepted.symm ?_ other fun other _ =>
      served other
    simpa using (served session).inOrder

/-- The message at a place of what the session has handed to its socket comes from the command. -/
def Hands (s : Feed) (session : SessionAddr) (i : Nat) (command : CommandPtr) (message : List UInt8) : Prop :=
  (s.sources session)[i]? = some (some command) ∧
    ((s.sessions session).handed[i]?).map Payload.bytes = some message

/-- What a session writes for the broadcaster are snapshots that the manager
has asked for, each whole and unchanged, and never an older one after a newer one. -/
structure FeedsInOrder (s : Feed) (session : SessionAddr) : Prop where
  genuine : ∀ i command message, s.Hands session i command message →
    s.manager.enqueued[command.addr]? = some command.cmd ∧
      ∃ snapshot, command.cmd.data = .snapshot snapshot ∧ message = snapshot.serialize
  ordered : ∀ i j former later first second, i < j → s.Hands session i former first →
    s.Hands session j later second → former.addr ≤ later.addr

theorem toward_eq_some {session : SessionAddr} {delivery : Delivery} {command : CommandPtr} {message : List UInt8}
    (sent : toward session delivery = some (command, message)) :
    delivery.origin = command ∧ delivery.call = .sendMsg session message := by
  obtain ⟨origin, call⟩ := delivery
  cases call with
  | stop other => contradiction
  | sendMsg receiver text =>
    simp only [toward] at sent
    split at sent
    next same =>
      obtain ⟨rfl, rfl⟩ := Prod.mk.inj (Option.some.inj sent)
      exact ⟨rfl, same ▸ rfl⟩
    next => contradiction

theorem Served.hands {s : Feed} {session : SessionAddr} (served : s.Served session) {i : Nat} {command : CommandPtr}
    {message : List UInt8} (hands : s.Hands session i command message) :
    ∃ payload, ((s.sources session).zip (s.sessions session).accepted)[i]? = some (some command, payload) ∧
      payload.bytes = message := by
  obtain ⟨source, bytes⟩ := hands
  obtain ⟨payload, handed, rfl⟩ := Option.map_eq_some_iff.mp bytes
  obtain ⟨rest, accepted⟩ := served.consistent.order
  have accepted : (s.sessions session).accepted[i]? = some payload := by
    rw [← accepted, List.getElem?_append_left (List.getElem?_eq_some_iff.mp handed).1, handed]
  exact ⟨payload, List.getElem?_zip_eq_some.mpr ⟨source, accepted⟩, rfl⟩

/-- What the sessions take from the broadcaster is in the order of the commands. -/
theorem Invariant.taken_ordered {s : Feed} (invariant : s.Invariant) (session : SessionAddr) :
    (s.taken session).Pairwise fun former later => former.1.addr ≤ later.1.addr := by
  have sent : (s.broadcaster.delivered.filterMap (toward session)).Pairwise fun former later =>
      former.1.addr ≤ later.1.addr := by
    rw [List.pairwise_filterMap]
    refine (List.pairwise_map.mp invariant.ordered.delivered).imp ?_
    intro first second before former atFormer later atLater
    rwa [← (toward_eq_some atFormer).1, ← (toward_eq_some atLater).1]
  exact sent.sublist ((List.sublist_append_left _ _).trans (invariant.served session).inOrder)

/-- What a session has taken, or is going to take, is the whole snapshot of a command of the manager. -/
theorem Invariant.genuine {s : Feed} (invariant : s.Invariant) {session : SessionAddr}
    {entry : CommandPtr × List UInt8} (member : entry ∈ s.taken session ++ s.strands session) :
    s.manager.enqueued[entry.1.addr]? = some entry.1.cmd ∧
      ∃ snapshot, entry.1.cmd.data = .snapshot snapshot ∧ entry.2 = snapshot.serialize := by
  have sent := (invariant.served session).inOrder.subset member
  obtain ⟨delivery, delivered, sent⟩ := List.mem_filterMap.mp sent
  obtain ⟨origin, call⟩ := toward_eq_some sent
  obtain ⟨made, receiver, snapshot, same, data⟩ := invariant.ordered.origins delivery delivered
  rw [origin] at made data
  refine ⟨?_, snapshot, data, (SessionCall.sendMsg.inj (call.symm.trans same)).2⟩
  obtain ⟨i, at_i⟩ := List.mem_iff_getElem?.mp made
  have numbered := congrArg (fun addrs => addrs[i]?) invariant.ordered.inOrder.addrs
  have within := (List.getElem?_eq_some_iff.mp at_i).1
  simp only [List.getElem?_map, at_i, Option.map_some, List.getElem?_range within] at numbered
  rw [Option.some.inj numbered, ← invariant.pushed, List.getElem?_map, at_i]
  rfl

theorem Invariant.feedsInOrder {s : Feed} (invariant : s.Invariant) (session : SessionAddr) :
    s.FeedsInOrder session := by
  have served := invariant.served session
  constructor
  · intro i command message hands
    obtain ⟨payload, here, rfl⟩ := served.hands hands
    have taken : (command, payload.bytes) ∈ s.taken session :=
      List.mem_filterMap.mpr ⟨_, List.mem_of_getElem? here, rfl⟩
    exact invariant.genuine (List.mem_append_left _ taken)
  · intro i j former later first second before formerly lately
    obtain ⟨_, atFormer, _⟩ := served.hands formerly
    obtain ⟨_, atLater, _⟩ := served.hands lately
    have pairs := List.pairwise_filterMap.mp (invariant.taken_ordered session)
    obtain ⟨i_lt, atFormer⟩ := List.getElem?_eq_some_iff.mp atFormer
    obtain ⟨j_lt, atLater⟩ := List.getElem?_eq_some_iff.mp atLater
    exact List.pairwise_iff_getElem.mp pairs i j i_lt j_lt before _ (by rw [atFormer]; rfl) _ (by rw [atLater]; rfl)

theorem invariant_initial (clients : ClientList) (opened : SessionAddr → Bool) :
    Invariant { broadcaster := { clients }, sessions := fun session => { socketOpen := opened session } } :=
  ⟨Broadcaster.ordered_initial clients, rfl, fun _ => ⟨Session.initial_consistent _, rfl, List.Sublist.refl _⟩⟩

/-- However the threads interleave, every session writes the snapshots in the order in which they were made. -/
theorem run_feedsInOrder (clients : ClientList) (opened : SessionAddr → Bool) (events : List Event) (last : Feed)
    (run : exec step { broadcaster := { clients }, sessions := fun session => { socketOpen := opened session } } events =
      some last) (session : SessionAddr) : last.FeedsInOrder session := by
  have invariant := exec_invariant (fun _ _ _ invariant moved => Invariant.step invariant moved) run
    (invariant_initial clients opened)
  exact invariant.feedsInOrder session

/-- A snapshot for one client and one for all, with an answer of the server between them. -/
theorem answered_feedsInOrder : ∃ last : Feed, last.FeedsInOrder 7 ∧ (last.sessions 7).handed.length = 3 ∧
    last.Hands 7 0 ⟨0, some 1, .snapshot {}⟩ (Snapshot.serialize {}) ∧
    last.Hands 7 2 ⟨1, none, .snapshot {}⟩ (Snapshot.serialize {}) := by
  let events : List Event := [.client (.addSession 1 (some 7)), .client (.subscribe 1),
    .manager (.handle (.sendSnapshotToClient 1 true) (.ok (some {}))),
    .manager (.handle (.startBroadcast ⟨200, true⟩) (.ok none)), .pop, .post, .execute, .send 7,
    .session 7 (.sendMsg [1]), .manager .expire, .manager (.complete 0 (.ok (some {}))), .pop, .post, .execute, .send 7,
    .session 7 (.writeDone 0), .session 7 (.writeDone 0)]
  obtain ⟨last, run, facts⟩ : ∃ last,
      exec step { broadcaster := { clients := {} }, sessions := fun _ => { socketOpen := true } } events = some last ∧
      (last.sessions 7).handed.length = 3 ∧ last.Hands 7 0 ⟨0, some 1, .snapshot {}⟩ (Snapshot.serialize {}) ∧
      last.Hands 7 2 ⟨1, none, .snapshot {}⟩ (Snapshot.serialize {}) := ⟨_, rfl, rfl, ⟨rfl, rfl⟩, rfl, rfl⟩
  exact ⟨last, run_feedsInOrder {} (fun _ => true) events last run 7, facts⟩

end Feed

end Stakan
