import Stakan.Broadcaster.Escapes
import Stakan.DOMManager.ExactlyOnce

namespace Stakan

namespace Session

/-- A session that goes on after some work, with the queue that it has then. -/
structure GoesOn (queue : List Payload) (s : Session) : Prop where
  connected : s.disconnected = false
  opened : s.socketOpen = true
  queue : s.messagesQueue = queue

theorem write_goesOn {s : Session} {queue : List Payload} (up : s.disconnected = false) (opened : s.socketOpen = true)
    (waiting : s.messagesQueue = queue) : s.write.GoesOn queue := by
  unfold write
  rw [if_neg (by simp [opened])]
  split
  next => exact ⟨up, opened, waiting⟩
  next => exact ⟨up, opened, waiting⟩

theorem sendMsg_goesOn {s : Session} (up : s.disconnected = false) (opened : s.socketOpen = true)
    (message : List UInt8) :
    (s.sendMsg message).GoesOn (s.messagesQueue ++ [⟨s.accepted.length, message⟩]) := by
  unfold sendMsg
  rw [if_neg (by simp [up, opened])]
  dsimp only
  split
  next => exact ⟨up, opened, rfl⟩
  next =>
    refine write_goesOn ?_ ?_ rfl
    · exact up
    · exact opened

/-- A write that is done takes the front off the queue. -/
theorem writeDone_goesOn {s after : Session} {i : Nat} (up : s.disconnected = false) (opened : s.socketOpen = true)
    (moved : step s (.writeDone i) = some after) : after.GoesOn s.messagesQueue.tail := by
  cases moves_of_step moved with
  | writeDone i within =>
    simp only [processWrite, Bool.false_eq_true, if_false]
    split
    next => exact ⟨up, opened, rfl⟩
    next =>
      refine write_goesOn ?_ ?_ rfl
      · exact up
      · exact opened

/-- As long as a session is connected, what it is writing is the front of its queue. -/
theorem Consistent.queue_of_writing {s after : Session} {i : Nat} (consistent : s.Consistent)
    (up : s.disconnected = false) (moved : Session.step s (.writeDone i) = some after) : 0 < s.messagesQueue.length := by
  cases moves_of_step moved with
  | writeDone i within =>
    rcases consistent.flowing up with ⟨idle, _⟩ | ⟨chunk, rest, _, queue, _⟩
    · simp [idle] at within
    · simp [queue]

end Session

namespace DOMManager

/-- The manager gives the broadcaster nothing but snapshots. -/
def SnapshotsOnly (s : DOMManager) : Prop := ∀ cmd ∈ s.enqueued, ∃ snapshot, cmd.data = .snapshot snapshot

theorem SnapshotsOnly.enqueue {s : DOMManager} (only : s.SnapshotsOnly) (clientId : Option ClientId)
    (fetched : Fetched) : (s.enqueue clientId fetched).SnapshotsOnly := by
  unfold DOMManager.enqueue
  split
  next snapshot =>
    intro cmd member
    rcases List.mem_append.mp member with past | new
    · exact only cmd past
    · rw [List.mem_singleton.mp new]
      exact ⟨snapshot, rfl⟩
  next => exact only
  next => exact only

theorem SnapshotsOnly.step {s after : DOMManager} (only : s.SnapshotsOnly) {event : Event}
    (moved : step s event = some after) : after.SnapshotsOnly := by
  cases event with
  | handle cmd fetched =>
    obtain rfl := Option.some.inj moved
    cases cmd with
    | addOrder | removeOrder | stopBroadcast => exact only
    | sendSnapshotToClient clientId => exact only.enqueue _ _
    | startBroadcast terms =>
      rw [handle]
      split
      next => exact only
      next => rwa [SnapshotsOnly, startBroadcasting_enqueued]
  | expire =>
    simp only [DOMManager.step] at moved
    split at moved
    next => contradiction
    next =>
      obtain rfl := Option.some.inj moved
      exact only
  | complete i fetched =>
    obtain ⟨completion, _, moved⟩ := Option.bind_eq_some_iff.mp moved
    obtain rfl := Option.some.inj moved
    rw [onTimer]
    split
    next => exact only
    next =>
      rw [SnapshotsOnly, scheduleNextBroadcast_enqueued]
      exact SnapshotsOnly.enqueue (s := { s with
        completions := s.completions.eraseIdx i, trace := s.trace ++ [.sent completion.wait.useTestBroadcast] })
        only none fetched

end DOMManager

namespace Feed
open LabelledRun

/-- The steps that are still to be made for the session: five for a command
in the queue, one less for each stage that it has behind it. -/
def work (p : SessionAddr) (s : Feed) : Nat :=
  5 * s.broadcaster.trace.queue.length + 4 * s.broadcaster.held.toList.length + 3 * s.broadcaster.posted.length +
    2 * (s.strands p).length + (s.sessions p).messagesQueue.length

/-- What goes on by itself: the worker, the io_context, the strand of the
session, and its writes. -/
inductive Onward (p : SessionAddr) : Event → Prop
  | pop : Onward p .pop
  | post : Onward p .post
  | execute : Onward p .execute
  | send : Onward p (.send p)
  | written (i : Nat) : Onward p (.session p (.writeDone i))

/-- What the handlers find: there are no null sessions, and every command on
its way for a single client names one that is registered. -/
structure Targets (state : Broadcaster) : Prop where
  real : ∀ d, state.clients.getSession d ≠ .ok none
  named : ∀ cmd ∈ state.underWay, ∀ d, cmd.cmd.clientId = some d → state.clients.hasClient d = true

/-- A feed whose client is served, and whose handlers find all that they look for. -/
structure Flows (c : ClientId) (p : SessionAddr) (s : Feed) : Prop where
  invariant : s.Invariant
  accounts : s.Accounts c p
  attached : s.Attached c p
  defined : s.broadcaster.undefined = false
  targets : Targets s.broadcaster
  only : s.manager.SnapshotsOnly

variable {c : ClientId} {p : SessionAddr} {s after : Feed}

/-- No new commands, and the same clients. -/
theorem Targets.mono {state next : Broadcaster} (targets : Targets state) (clients : next.clients = state.clients)
    (fewer : next.underWay ⊆ state.underWay) : Targets next := by
  obtain ⟨real, named⟩ := targets
  exact ⟨by rwa [clients], fun cmd member => by rw [clients]; exact named cmd (fewer member)⟩

/-- The handler of a snapshot returns if it finds its client, and no null pointer. -/
theorem handler_returns {clients : ClientList} (real : ∀ d, clients.getSession d ≠ .ok none) {cmd : BroadcastCommand}
    {snapshot : Snapshot} (data : cmd.data = .snapshot snapshot)
    (named : ∀ d, cmd.clientId = some d → clients.hasClient d = true) :
    ∃ calls, Broadcaster.handler cmd clients = .ok calls := by
  obtain ⟨clientId, _⟩ := cmd
  obtain rfl := data
  cases clientId with
  | none =>
    have subscribers : clients.SubscribersReal := fun d _ => real d
    obtain ⟨recipients, _, _, sent⟩ := subscribers.reachesSubscribers.sent
    exact ⟨_, sent snapshot.serialize⟩
  | some id =>
    obtain ⟨ctx, registered⟩ := Option.isSome_iff_exists.mp (named id rfl)
    have bound : clients.getSession id = .ok ctx.session := ClientList.getSession_eq_ok.mpr ⟨ctx, registered, rfl⟩
    cases present : ctx.session with
    | none => exact absurd (present ▸ bound) (real id)
    | some session => exact ⟨_, Broadcaster.handler_targeted_eq_ok.mpr ⟨session, present ▸ bound, rfl⟩⟩

/-- Every command on its way is a snapshot. -/
theorem Flows.snapshot (flows : s.Flows c p) {cmd : CommandPtr} (member : cmd ∈ s.broadcaster.underWay) :
    ∃ snapshot, cmd.cmd.data = .snapshot snapshot := by
  have pushed := flows.invariant.ordered.made cmd member
  refine flows.only cmd.cmd ?_
  rw [← flows.invariant.pushed]
  exact List.mem_map_of_mem pushed

/-- A handler that runs returns: no exception escapes, and its behaviour is defined. -/
def HandlerReturns (s : Feed) : Event → Prop
  | .execute => ∀ cmd, s.broadcaster.posted[0]? = some cmd →
      ∃ calls, Broadcaster.handler cmd.cmd s.broadcaster.clients = .ok calls
  | _ => True

theorem Flows.handlerReturns (flows : s.Flows c p) (event : Event) : s.HandlerReturns event := by
  cases event with
  | execute =>
    intro cmd first
    have member : cmd ∈ s.broadcaster.underWay :=
      List.mem_append_left _ (List.mem_append_left _ (List.mem_of_getElem? first))
    obtain ⟨snapshot, data⟩ := flows.snapshot member
    exact handler_returns flows.targets.real data (flows.targets.named cmd member)
  | _ => trivial

/-- The first handler runs to its end. -/
theorem Flows.executed (flows : s.Flows c p) {next : Broadcaster}
    (moved : s.broadcaster.step (.execute 0) = some next) :
    ∃ cmd rest calls, s.broadcaster.posted = cmd :: rest ∧
      Broadcaster.handler cmd.cmd s.broadcaster.clients = .ok calls ∧ next = { s.broadcaster with
        posted := rest, delivered := s.broadcaster.delivered ++ calls.map (Delivery.mk cmd) } := by
  obtain ⟨cmd, rest, posted, done⟩ := step_execute_first moved
  obtain ⟨calls, returned⟩ := flows.handlerReturns .execute cmd (by rw [posted]; rfl)
  rw [returned] at done
  rcases done with ⟨same, handled, rfl⟩ | ⟨_, failed, _⟩ | ⟨failed, _⟩
  · exact ⟨cmd, rest, same, posted, returned.trans handled, rfl⟩
  · contradiction
  · contradiction

/-- The broadcaster goes on, with the same clients and no new commands. -/
theorem Flows.broadcasts (flows : s.Flows c p) {broadcaster : Broadcaster}
    {strands : SessionAddr → List (CommandPtr × List UInt8)} (invariant : { s with broadcaster, strands }.Invariant)
    (accounts : { s with broadcaster, strands }.Accounts c p) (defined : broadcaster.undefined = s.broadcaster.undefined)
    (clients : broadcaster.clients = s.broadcaster.clients)
    (fewer : broadcaster.underWay ⊆ s.broadcaster.underWay) : { s with broadcaster, strands }.Flows c p := by
  obtain ⟨client, connected, opened⟩ := flows.attached
  exact ⟨invariant, accounts, ⟨by rwa [← clients] at client, connected, opened⟩, defined.trans flows.defined,
    flows.targets.mono clients fewer, flows.only⟩

theorem Flows.step (flows : s.Flows c p) {event : Event} (onward : Onward p event) (moved : step s event = some after) :
    after.Flows c p ∧ after.work p < s.work p := by
  have invariant := flows.invariant.step moved
  have accounts := flows.accounts.step flows.invariant flows.attached moved
  obtain ⟨client, connected, opened⟩ := flows.attached
  cases onward with
  | pop =>
    obtain ⟨broadcaster, moving, moved⟩ := Option.bind_eq_some_iff.mp moved
    obtain rfl := Option.some.inj moved
    obtain ⟨front, rest, idle, queue, rfl⟩ := Broadcaster.step_pop moving
    refine ⟨flows.broadcasts invariant accounts rfl rfl ?_, ?_⟩
    · simp [Broadcaster.underWay, idle, queue]
    · simp only [work, idle, queue, Option.toList_none, Option.toList_some, List.length_nil, List.length_cons]
      omega
  | post =>
    obtain ⟨broadcaster, moving, moved⟩ := Option.bind_eq_some_iff.mp moved
    obtain rfl := Option.some.inj moved
    obtain ⟨cmd, held, rfl⟩ := Broadcaster.step_post moving
    refine ⟨flows.broadcasts invariant accounts rfl rfl ?_, ?_⟩
    · simp [Broadcaster.underWay, held]
    · simp only [work, held, Option.toList_none, Option.toList_some, List.length_nil, List.length_cons,
        List.length_append]
      omega
  | execute =>
    obtain ⟨broadcaster, moving, moved⟩ := Option.bind_eq_some_iff.mp moved
    obtain rfl := Option.some.inj moved
    obtain ⟨cmd, rest, calls, posted, handled, rfl⟩ := flows.executed moving
    refine ⟨flows.broadcasts invariant accounts rfl rfl ?_, ?_⟩
    · simp [Broadcaster.underWay, posted]
    · have sent := congrArg List.length (handler_ok client handled)
      have few := List.length_filter_le (concerns c) [cmd]
      simp only [work, posted, List.length_cons, List.length_append, List.drop_left, List.length_map,
        List.length_nil] at sent few ⊢
      omega
  | send =>
    simp only [Feed.step] at moved
    split at moved
    next => contradiction
    next origin message rest waiting =>
      obtain rfl := Option.some.inj moved
      have goes := Session.sendMsg_goesOn connected opened message
      have state : (Feed.settle { s with strands := Function.update s.strands p rest } p
          ((s.sessions p).sendMsg message) (some origin)).sessions p = (s.sessions p).sendMsg message :=
        Function.update_self ..
      refine ⟨⟨invariant, accounts, ⟨client, ?_, ?_⟩, flows.defined, flows.targets, flows.only⟩, ?_⟩
      · rw [state, goes.connected]
      · rw [state, goes.opened]
      · have left : (Feed.settle { s with strands := Function.update s.strands p rest } p
            ((s.sessions p).sendMsg message) (some origin)).strands p = rest := Function.update_self ..
        simp only [work, state, left, goes.queue, waiting, List.length_cons, List.length_append, List.length_nil]
        simp only [Feed.settle]
        omega
  | written i =>
    obtain ⟨state, moving, moved⟩ := Option.bind_eq_some_iff.mp moved
    obtain rfl := Option.some.inj moved
    have goes := Session.writeDone_goesOn connected opened moving
    have here : (s.settle p state none).sessions p = state := Function.update_self ..
    refine ⟨⟨invariant, accounts, ⟨client, ?_, ?_⟩, flows.defined, flows.targets, flows.only⟩, ?_⟩
    · rw [here, goes.connected]
    · rw [here, goes.opened]
    · have writing := (flows.invariant.served p).consistent.queue_of_writing connected moving
      simp only [work, here, goes.queue, List.length_tail]
      simp only [Feed.settle]
      omega

/-- Nothing is left to be done: the session has handed over all that it has
accepted, and that is all that was meant for its client. -/
structure Drained (c : ClientId) (p : SessionAddr) (s : Feed) : Prop where
  underWay : s.broadcaster.underWay = []
  strand : s.strands p = []
  handed : (s.sessions p).handed = (s.sessions p).accepted
  all : (s.taken p).map Prod.fst = s.broadcaster.trace.popped.filter (concerns c)

/-- The handler of the first command runs. -/
theorem Flows.executes (flows : s.Flows c p) {cmd : CommandPtr} {rest : List CommandPtr}
    (waiting : s.broadcaster.posted = cmd :: rest) : (Feed.step s .execute).isSome := by
  have first : s.broadcaster.posted[0]? = some cmd := by rw [waiting]; rfl
  obtain ⟨calls, returned⟩ := flows.handlerReturns .execute cmd first
  simp [Feed.step, Broadcaster.step_execute_ok flows.defined first returned]

/-- As long as something is left, one of the parties can go on. -/
theorem Flows.drained (flows : s.Flows c p) (stuck : ∀ event, Onward p event → Feed.step s event = none) :
    s.Drained c p := by
  have written : (s.sessions p).accepted = (s.sessions p).handed := by
    rcases (flows.invariant.served p).consistent.flowing flows.attached.connected with
      ⟨_, _, _, same⟩ | ⟨chunk, rest, outstanding, _⟩
    · exact same
    · have blocked := stuck _ (.written 0)
      simp [Feed.step, Session.step, outstanding] at blocked
  have strand : s.strands p = [] := by
    cases waiting : s.strands p with
    | nil => rfl
    | cons first rest =>
      have blocked := stuck _ .send
      simp [Feed.step, waiting] at blocked
  have posted : s.broadcaster.posted = [] := by
    cases waiting : s.broadcaster.posted with
    | nil => rfl
    | cons cmd rest =>
      have goes := flows.executes waiting
      rw [stuck _ .execute] at goes
      contradiction
  have held : s.broadcaster.held = none := by
    cases waiting : s.broadcaster.held with
    | none => rfl
    | some cmd =>
      have blocked := stuck _ .post
      simp [Feed.step, Broadcaster.step_of_defined flows.defined, Broadcaster.perform, waiting] at blocked
  have queue : s.broadcaster.trace.queue = [] := by
    cases waiting : s.broadcaster.trace.queue with
    | nil => rfl
    | cons front rest =>
      have blocked := stuck _ .pop
      simp [Feed.step, Broadcaster.step_of_defined flows.defined, Broadcaster.perform, held, CommandQueue.pop,
        CommandQueue.step, waiting] at blocked
  have all := flows.accounts
  simp only [Accounts, toRun, strand, posted, held, Option.toList_none, List.append_nil, List.filter_nil] at all
  refine ⟨?_, strand, written.symm, all⟩
  simp only [Broadcaster.underWay, posted, held, queue, Option.toList_none, List.append_nil]

theorem step_snapshotsOnly {event : Event} (only : s.manager.SnapshotsOnly) (moved : step s event = some after) :
    after.manager.SnapshotsOnly := by
  cases event with
  | manager event =>
    obtain ⟨manager, managed, moved⟩ := Option.bind_eq_some_iff.mp moved
    obtain ⟨broadcaster, _, moved⟩ := Option.bind_eq_some_iff.mp moved
    obtain rfl := Option.some.inj moved
    exact only.step managed
  | pop | post | execute | client | session =>
    obtain ⟨_, _, moved⟩ := Option.bind_eq_some_iff.mp moved
    obtain rfl := Option.some.inj moved
    exact only
  | send session =>
    simp only [step] at moved
    split at moved
    next => contradiction
    next =>
      obtain rfl := Option.some.inj moved
      exact only

/-- Without news from outside the feed comes to rest, in whatever order its
parties go on, as long as the commands on their way name registered clients:
every handler returns, there are only so many steps, and as long as there is
work, one can be made. At rest every command for the client that was not
absorbed has been handed to its socket. -/
theorem run_drains (clients : ClientList) (opened : SessionAddr → Bool) (events : List Event) (s : Feed)
    (run : exec step (start clients opened) events = some s)
    (attached : Always step (Attached c p) (start clients opened) events) (defined : s.broadcaster.undefined = false)
    (targets : Targets s.broadcaster) (more : List Event) (last : Feed) (onward : ∀ event ∈ more, Onward p event)
    (goes : exec step s more = some last) :
    Guarded step HandlerReturns s more ∧ more.length + last.work p ≤ s.work p ∧
      ((∀ event, Onward p event → step last event = none) → last.Drained c p) := by
  obtain ⟨invariant, accounts⟩ := run_accounts run attached
  have fresh : (start clients opened).manager.SnapshotsOnly := fun cmd member => by simp [start] at member
  have only := exec_invariant (fun _ _ _ only moved => step_snapshotsOnly only moved) run fresh
  have flows : s.Flows c p :=
    ⟨invariant, accounts, attached events [] s (List.append_nil events).symm run, defined, targets, only⟩
  have still : Always step (Flows c p) s more := (guarded_of_forall_mem step onward s).always
    (fun _ _ _ flows onward moved => (Flows.step flows onward moved).1) flows
  refine ⟨still.guarded.mono fun _ event flows => flows.handlerReturns event, ?_, ?_⟩
  · exact exec_length_le_of_measure (work p) (fun _ _ _ flows onward moved => Flows.step flows onward moved) goes
      onward flows
  · exact (still more [] last (List.append_nil more).symm goes).drained

/-- What is left of the two requests: the second handler, its message, and the two writes. -/
def remaining : List Event :=
  [.post, .session 7 (.writeDone 0), .execute, .send 7, .session 7 (.writeDone 0)]

theorem twoRequests_drains : ∃ s last : Feed, exec step (start oneClient fun _ => true) twoRequests = some s ∧
    exec step s remaining = some last ∧ s.work 7 = remaining.length ∧ Guarded step HandlerReturns s remaining ∧
      last.Drained 1 7 := by
  obtain ⟨s, last, run, same, named, defined, goes, work, stuck⟩ : ∃ s last,
      exec step (start oneClient fun _ => true) twoRequests = some s ∧ s.broadcaster.clients = oneClient ∧
      s.broadcaster.underWay.map (fun cmd => cmd.cmd.clientId) = [some 1] ∧ s.broadcaster.undefined = false ∧
      exec step s remaining = some last ∧ s.work 7 = remaining.length ∧
      ∀ event, Onward 7 event → step last event = none := by
    refine ⟨_, _, rfl, rfl, rfl, rfl, rfl, rfl, fun event onward => ?_⟩
    cases onward with
    | pop | post | execute | send => rfl
    | written i => rfl
  have real : ∀ d, s.broadcaster.clients.getSession d ≠ .ok none := by
    intro d null
    rw [same] at null
    by_cases own : d = 1
    · subst own
      contradiction
    · rw [oneClient_getSession own] at null
      contradiction
  have targets : Targets s.broadcaster := by
    refine ⟨real, fun cmd member d target => ?_⟩
    have mine := List.mem_map_of_mem (f := fun cmd => cmd.cmd.clientId) member
    rw [named, target, List.mem_singleton] at mine
    cases Option.some.inj mine
    rw [same]
    rfl
  have onward : ∀ event ∈ remaining, Onward 7 event := by
    simp [remaining, Onward.post, Onward.execute, Onward.send, Onward.written]
  have drains := run_drains oneClient (fun _ => true) twoRequests s run twoRequests_attached defined targets remaining
    last onward goes
  exact ⟨s, last, run, goes, work, drains.1, drains.2.2 stuck⟩

end Feed

end Stakan
