import Stakan.DOMManager.Feed

namespace Stakan

namespace ClientList

/-- The session is that of one client, and the client is subscribed. -/
structure SoleSession (c : ClientId) (p : SessionAddr) (list : ClientList) : Prop where
  sole : ∀ d, list.getSession d = .ok (some p) ↔ d = c
  subscribed : list.isSubscribed c = .ok true

variable {list : ClientList} {c : ClientId} {p : SessionAddr}

/-- A broadcast meets the session once. -/
theorem SoleSession.count (sole : SoleSession c p list) : list.getSubscribedSessions.count (some p) = 1 := by
  let mine := list.clients.entries.filter fun entry => (entry.2.session == some p) && entry.2.subscribed
  have counted : list.getSubscribedSessions.count (some p) = mine.length := by
    rw [getSubscribedSessions, List.count, List.countP_map, List.countP_filter, List.countP_eq_length_filter]
    rfl
  have unique : mine.keys.Nodup := (List.filter_sublist.map Sigma.fst).nodup list.clients.nodupKeys
  have all : ∀ d ∈ mine.keys, d = c := by
    intro d member
    obtain ⟨entry, inside, rfl⟩ := List.mem_map.mp member
    obtain ⟨entry_mem, marked⟩ := List.mem_filter.mp inside
    have bound : entry.2.session = some p := by simpa using (Bool.and_eq_true_iff.mp marked).1
    exact (sole.sole entry.1).mp (getSession_eq_ok.mpr ⟨entry.2, AList.mem_lookup_iff.mpr entry_mem, bound⟩)
  have once : mine.length ≤ 1 := by
    rw [List.eq_replicate_of_mem all, List.nodup_replicate] at unique
    simpa [List.keys] using unique
  have present : 0 < mine.length := by
    obtain ⟨ctx, registered, bound⟩ := getSession_eq_ok.mp ((sole.sole c).mpr rfl)
    have flag : ctx.subscribed = true := by
      simpa [isSubscribed, context, registered, Except.map] using sole.subscribed
    refine List.length_pos_of_mem (List.mem_filter.mpr ⟨AList.mem_lookup_iff.mp registered, ?_⟩)
    simp [bound, flag]
  omega

/-- What a broadcast brings to a session: the message, as often as the session is met. -/
theorem mapM_send_toward {cmd : CommandPtr} {message : List UInt8} {sessions : List SessionPtr}
    {calls : List SessionCall} (sent : sessions.mapM (send message) = .ok calls) :
    (calls.map (Delivery.mk cmd)).filterMap (Feed.toward p) =
      List.replicate (sessions.count (some p)) (cmd, message) := by
  induction sessions generalizing calls with
  | nil =>
    rw [List.mapM_nil] at sent
    cases Except.ok.inj sent
    rfl
  | cons session sessions ih =>
    rw [List.mapM_cons] at sent
    cases session with
    | none => contradiction
    | some q =>
      cases others : sessions.mapM (send message) with
      | error failure => rw [others] at sent; contradiction
      | ok rest =>
        rw [others] at sent
        obtain rfl := Except.ok.inj sent
        by_cases same : q = p
        · subst same
          rw [List.count_cons_self, List.replicate_succ, ← ih others]
          simp [Feed.toward]
        · rw [List.count_cons_of_ne (by simpa using same), ← ih others]
          simp [Feed.toward, same]

end ClientList

namespace Feed
open LabelledRun

/-- A command for the client alone, or for all. -/
def concerns (c : ClientId) (command : CommandPtr) : Bool :=
  match command.cmd.clientId with
  | some id => id = c
  | none => true

variable {c : ClientId} {p : SessionAddr} {clients : ClientList} {cmd : CommandPtr}

/-- The handler of a command that returns has sent to the session if the
command concerns its client, and once. -/
theorem handler_ok (sole : clients.SoleSession c p) {calls : List SessionCall}
    (handled : Broadcaster.handler cmd.cmd clients = .ok calls) :
    ((calls.map (Delivery.mk cmd)).filterMap (toward p)).map Prod.fst = [cmd].filter (concerns c) := by
  obtain ⟨addr, clientId, data⟩ := cmd
  cases data with
  | mdUpdate => contradiction
  | snapshot snapshot =>
    cases clientId with
    | none =>
      rw [ClientList.mapM_send_toward handled, sole.count]
      rfl
    | some id =>
      have sent : clients.broadcastToCertain id snapshot.serialize = .ok calls := handled
      obtain ⟨q, bound, rfl⟩ := ClientList.broadcastToCertain_ok sent
      by_cases same : q = p
      · subst same
        obtain rfl := (sole.sole id).mp bound
        simp [toward, concerns]
      · have other : id ≠ c := by
          rintro rfl
          exact same (Option.some.inj (Except.ok.inj (bound.symm.trans ((sole.sole id).mpr rfl))))
        simp [toward, concerns, same, other]

/-- A handler that throws is none of the client's. -/
theorem handler_error (sole : clients.SoleSession c p) {failure : Failure}
    (handled : Broadcaster.handler cmd.cmd clients = .error failure) (escapes : failure ≠ .undefinedBehaviour) :
    concerns c cmd = false := by
  obtain ⟨addr, clientId, data⟩ := cmd
  cases data with
  | mdUpdate => exact absurd (Except.error.inj handled).symm escapes
  | snapshot snapshot =>
    cases clientId with
    | none =>
      have sent : clients.getSubscribedSessions.mapM (ClientList.send snapshot.serialize) = .error failure := handled
      rcases ClientList.broadcast_cases snapshot.serialize clients.getSubscribedSessions with failed | ⟨_, made, _⟩
      · exact absurd (Except.error.inj (sent.symm.trans failed)) escapes
      · rw [made] at sent
        contradiction
    | some id =>
      have sent : clients.broadcastToCertain id snapshot.serialize = .error failure := handled
      by_cases own : id = c
      · subst own
        rw [ClientList.broadcastToCertain, (sole.sole id).mpr rfl] at sent
        contradiction
      · simp [concerns, own]

/-- The client is subscribed, and it and no other has the session, which is connected. -/
structure Attached (c : ClientId) (p : SessionAddr) (s : Feed) : Prop where
  client : s.broadcaster.clients.SoleSession c p
  connected : (s.sessions p).disconnected = false
  opened : (s.sessions p).socketOpen = true

/-- The commands that the worker has popped, and whose handlers are still to run. -/
def toRun (s : Feed) : List CommandPtr := s.broadcaster.posted ++ s.broadcaster.held.toList

/-- Every command for the client that has been popped has reached its session
once, or is going to: the session has taken the message, or it waits on the
strand, or the handler is still to run. -/
def Accounts (c : ClientId) (p : SessionAddr) (s : Feed) : Prop :=
  (s.taken p ++ s.strands p).map Prod.fst ++ s.toRun.filter (concerns c) =
    s.broadcaster.trace.popped.filter (concerns c)

variable {s after : Feed}

theorem exec_enqueue_work {commands : List BroadcastCommand} {state next : Broadcaster}
    (run : exec Broadcaster.step state (commands.map .enqueue) = some next) :
    next.posted = state.posted ∧ next.held = state.held ∧ next.trace.popped = state.trace.popped := by
  induction commands generalizing state with
  | nil =>
    obtain rfl := Option.some.inj run
    exact ⟨rfl, rfl, rfl⟩
  | cons cmd commands ih =>
    obtain ⟨first, moved, rest⟩ := exec_cons_split run
    have later := ih rest
    obtain rfl := Broadcaster.step_enqueue moved
    exact later

/-- What is done elsewhere. -/
theorem Accounts.of_same (accounts : s.Accounts c p) (taken : after.taken p = s.taken p)
    (strand : after.strands p = s.strands p) (toRun : after.toRun = s.toRun)
    (popped : after.broadcaster.trace.popped = s.broadcaster.trace.popped) : after.Accounts c p := by
  rw [Accounts, taken, strand, toRun, popped]
  exact accounts

/-- The worker pops a command: it is to run, after all others. -/
theorem Accounts.pop (accounts : s.Accounts c p) {broadcaster : Broadcaster}
    (moved : s.broadcaster.step .pop = some broadcaster) : { s with broadcaster }.Accounts c p := by
  obtain ⟨front, rest, idle, _, rfl⟩ := Broadcaster.step_pop moved
  have before : s.toRun = s.broadcaster.posted := by rw [toRun, idle, Option.toList_none, List.append_nil]
  rw [Accounts, before] at accounts
  show (s.taken p ++ s.strands p).map Prod.fst ++ (s.broadcaster.posted ++ [front]).filter (concerns c) =
    (s.broadcaster.trace.popped ++ [front]).filter (concerns c)
  rw [List.filter_append, List.filter_append, ← List.append_assoc, accounts]

theorem step_execute_first {state next : Broadcaster} (moved : state.step (.execute 0) = some next) :
    ∃ cmd rest, state.posted = cmd :: rest ∧
      ((∃ calls, Broadcaster.handler cmd.cmd state.clients = .ok calls ∧ next = { state with
          posted := rest, delivered := state.delivered ++ calls.map (Delivery.mk cmd) }) ∨
        (∃ failure, Broadcaster.handler cmd.cmd state.clients = .error failure ∧ failure ≠ .undefinedBehaviour ∧
          next = { state with posted := rest }) ∨
        Broadcaster.handler cmd.cmd state.clients = .error .undefinedBehaviour ∧
          next = { state with undefined := true }) := by
  obtain ⟨cmd, first, done⟩ := Broadcaster.step_execute moved
  cases waiting : state.posted with
  | nil => rw [waiting] at first; contradiction
  | cons front rest =>
    rw [waiting] at first done
    obtain rfl := Option.some.inj first
    exact ⟨front, rest, rfl, done⟩

/-- The first handler runs, and what it sends goes to the strands. -/
theorem Accounts.execute (accounts : s.Accounts c p) (client : s.broadcaster.clients.SoleSession c p)
    (moved : step s .execute = some after) : after.Accounts c p := by
  obtain ⟨broadcaster, moving, moved⟩ := Option.bind_eq_some_iff.mp moved
  obtain rfl := Option.some.inj moved
  obtain ⟨cmd, rest, posted, done⟩ := step_execute_first moving
  have before : s.toRun.filter (concerns c) =
      [cmd].filter (concerns c) ++ (rest ++ s.broadcaster.held.toList).filter (concerns c) := by
    rw [toRun, posted, List.cons_append, ← List.filter_append]
    rfl
  rcases done with ⟨calls, handled, rfl⟩ | ⟨failure, handled, escapes, rfl⟩ | ⟨_, rfl⟩
  · rw [Accounts, before] at accounts
    have sent := handler_ok client handled
    simp only [Accounts, toRun, List.drop_left, List.map_append] at accounts ⊢
    rw [← accounts, ← sent]
    simp only [taken, List.append_assoc]
  · have none_sent : [cmd].filter (concerns c) = [] := by simp [handler_error client handled escapes]
    rw [Accounts, before, none_sent, List.nil_append] at accounts
    simp only [Accounts, toRun, List.drop_length, List.filterMap_nil, List.append_nil]
    exact accounts
  · simp only [Accounts, toRun, List.drop_length, List.filterMap_nil, List.append_nil]
    exact accounts

/-- A connected session takes the next message on its strand. -/
theorem Accounts.send (accounts : s.Accounts c p) (aligned : (s.sources p).length = (s.sessions p).accepted.length)
    (connected : (s.sessions p).disconnected = false) (opened : (s.sessions p).socketOpen = true)
    {origin : CommandPtr} {message : List UInt8} {rest : List (CommandPtr × List UInt8)}
    (waiting : s.strands p = (origin, message) :: rest) :
    (Feed.settle { s with strands := Function.update s.strands p rest } p ((s.sessions p).sendMsg message)
      (some origin)).Accounts c p := by
  have accepted := Session.sendMsg_takes connected opened message
  have more := taken_settle { s with strands := Function.update s.strands p rest } p ((s.sessions p).sendMsg message)
    (some origin) aligned accepted
  have left : (Feed.settle { s with strands := Function.update s.strands p rest } p ((s.sessions p).sendMsg message)
      (some origin)).strands p = rest := Function.update_self ..
  rw [Accounts, more, left, List.append_assoc]
  rw [Accounts, waiting] at accounts
  exact accounts

theorem Accounts.step (accounts : s.Accounts c p) (invariant : s.Invariant) (attached : s.Attached c p) {event : Event}
    (moved : step s event = some after) : after.Accounts c p := by
  cases event with
  | manager event =>
    obtain ⟨manager, managed, moved⟩ := Option.bind_eq_some_iff.mp moved
    obtain ⟨broadcaster, run, moved⟩ := Option.bind_eq_some_iff.mp moved
    obtain rfl := Option.some.inj moved
    obtain ⟨posted, held, popped⟩ := exec_enqueue_work run
    exact accounts.of_same rfl rfl (by rw [toRun, posted, held]; rfl) popped
  | pop =>
    obtain ⟨broadcaster, moving, moved⟩ := Option.bind_eq_some_iff.mp moved
    obtain rfl := Option.some.inj moved
    exact accounts.pop moving
  | post =>
    obtain ⟨broadcaster, moving, moved⟩ := Option.bind_eq_some_iff.mp moved
    obtain rfl := Option.some.inj moved
    obtain ⟨cmd, held, rfl⟩ := Broadcaster.step_post moving
    refine accounts.of_same rfl rfl ?_ rfl
    simp only [toRun, held, Option.toList_none, Option.toList_some, List.append_nil]
  | execute => exact accounts.execute attached.client moved
  | client op =>
    obtain ⟨broadcaster, moving, moved⟩ := Option.bind_eq_some_iff.mp moved
    obtain rfl := Option.some.inj moved
    obtain ⟨clients, _, rfl⟩ := Broadcaster.step_clientCall moving
    exact accounts.of_same rfl rfl rfl rfl
  | send session =>
    simp only [Feed.step] at moved
    split at moved
    next => contradiction
    next origin message rest waiting =>
      obtain rfl := Option.some.inj moved
      by_cases same : session = p
      · subst same
        exact accounts.send (invariant.served session).aligned attached.connected attached.opened waiting
      · refine accounts.of_same ?_ (Function.update_of_ne (Ne.symm same) ..) rfl rfl
        simp only [taken, Feed.settle, Function.update_of_ne (Ne.symm same)]
  | session session event =>
    obtain ⟨state, moving, moved⟩ := Option.bind_eq_some_iff.mp moved
    obtain rfl := Option.some.inj moved
    refine accounts.of_same ?_ rfl rfl rfl
    by_cases same : session = p
    · subst same
      obtain ⟨new, accepted⟩ := Session.step_accepted moving
      rw [taken_settle s session state none (invariant.served session).aligned accepted.symm]
      simp
    · simp only [taken, Feed.settle, Function.update_of_ne (Ne.symm same)]

/-- New sessions, and a manager and a broadcaster that have done nothing yet. -/
def start (clients : ClientList) (opened : SessionAddr → Bool) : Feed :=
  { broadcaster := { clients }, sessions := fun session => { socketOpen := opened session } }

theorem run_accounts {clients : ClientList} {opened : SessionAddr → Bool} {events : List Event} {last : Feed}
    (run : exec step (start clients opened) events = some last)
    (attached : Always step (Attached c p) (start clients opened) events) : last.Invariant ∧ last.Accounts c p := by
  have initial : (start clients opened).Invariant ∧ (start clients opened).Accounts c p :=
    ⟨invariant_initial clients opened, rfl⟩
  have kept : ∀ s event t, s.Invariant ∧ s.Accounts c p → s.Attached c p → step s event = some t →
      t.Invariant ∧ t.Accounts c p := by
    intro s event t ⟨invariant, accounts⟩ attached moved
    exact ⟨invariant.step moved, accounts.step invariant attached moved⟩
  exact exec_guarded_invariant kept run attached.guarded initial

/-- As long as the client is subscribed and its session connected, each
command for it that leaves the queue comes to the session exactly once, in
the order of the queue, and as the whole snapshot that the manager has put into it. -/
theorem run_exactlyOnce (clients : ClientList) (opened : SessionAddr → Bool) (events : List Event) (last : Feed)
    (run : exec step (start clients opened) events = some last)
    (attached : Always step (Attached c p) (start clients opened) events) :
    last.Accounts c p ∧ ∀ entry ∈ last.taken p ++ last.strands p,
      last.manager.enqueued[entry.1.addr]? = some entry.1.cmd ∧
        ∃ snapshot, entry.1.cmd.data = .snapshot snapshot ∧ entry.2 = snapshot.serialize := by
  obtain ⟨invariant, accounts⟩ := run_accounts run attached
  exact ⟨accounts, fun entry member => invariant.genuine member⟩

/-- One client, subscribed, with its session. -/
def oneClient : ClientList := ((ClientList.addSession 1 (some 7) {}).subscribe 1).2

theorem oneClient_getSession {d : ClientId} (other : d ≠ 1) :
    oneClient.getSession d = .error (ClientList.noClient d) := by
  have subscribed := ClientList.getSession_congr (ClientList.lookup_updateContext_of_ne other
    (ClientList.addSession 1 (some 7) {}) fun ctx => .ok { ctx with subscribed := true })
  rw [oneClient, ClientList.subscribe, subscribed, ClientList.getSession_addSession_of_ne other]
  rfl

theorem oneClient_sole : oneClient.SoleSession 1 7 := by
  refine ⟨fun d => ⟨fun bound => ?_, ?_⟩, rfl⟩
  · by_contra other
    rw [oneClient_getSession other] at bound
    contradiction
  · rintro rfl
    rfl

/-- Two snapshots for the client: one is taken, the other is still to be sent. -/
def twoRequests : List Event :=
  [.manager (.handle (.sendSnapshotToClient 1 true) (.ok (some {}))),
    .manager (.handle (.sendSnapshotToClient 1 true) (.ok (some {}))), .pop, .post, .pop, .execute, .send 7]

theorem twoRequests_attached : Always step (Attached 1 7) (start oneClient fun _ => true) twoRequests := by
  have sole := oneClient_sole
  exact always_cons ⟨sole, rfl, rfl⟩ rfl (always_cons ⟨sole, rfl, rfl⟩ rfl (always_cons ⟨sole, rfl, rfl⟩ rfl
    (always_cons ⟨sole, rfl, rfl⟩ rfl (always_cons ⟨sole, rfl, rfl⟩ rfl (always_cons ⟨sole, rfl, rfl⟩ rfl
      (always_cons ⟨sole, rfl, rfl⟩ rfl (always_nil ⟨sole, rfl, rfl⟩)))))))

theorem twoRequests_exactlyOnce : ∃ last : Feed, exec step (start oneClient fun _ => true) twoRequests = some last ∧
    (last.taken 7).length = 1 ∧ last.toRun.length = 1 ∧ last.Accounts 1 7 := by
  obtain ⟨last, run, taken, left⟩ : ∃ last, exec step (start oneClient fun _ => true) twoRequests = some last ∧
      (last.taken 7).length = 1 ∧ last.toRun.length = 1 := ⟨_, rfl, rfl, rfl⟩
  exact ⟨last, run, taken, left,
    (run_exactlyOnce oneClient (fun _ => true) twoRequests last run twoRequests_attached).1⟩

end Feed

end Stakan
