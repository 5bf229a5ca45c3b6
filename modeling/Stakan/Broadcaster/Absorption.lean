import Stakan.Broadcaster.Basic
import Stakan.ClientList.Broadcast

namespace Stakan

namespace Broadcaster
open LabelledRun

/-- Some snapshot that was asked for at the given push or later has been passed to the session. -/
def Served (session : SessionAddr) (addr : Nat) (state : Broadcaster) : Prop :=
  ∃ delivery ∈ state.delivered, addr ≤ delivery.origin.addr ∧
    ∃ data, delivery.origin.cmd.data = .snapshot data ∧ delivery.call = .sendMsg session data.serialize

def Drained (state : Broadcaster) : Prop := state.trace.queue = [] ∧ state.held = none ∧ state.posted = []

/-- Somewhere between the push of the command and the run of its handler. -/
def InFlight (state : Broadcaster) (cmd : CommandPtr) : Prop :=
  cmd ∈ state.trace.queue ∨ state.held = some cmd ∨ cmd ∈ state.posted

/-- A command on its way was on its way before, or is the one enqueued. -/
theorem InFlight.before {state after : Broadcaster} {event : Event} {cmd : CommandPtr}
    (inFlight : InFlight after cmd) (moved : step state event = some after) :
    InFlight state cmd ∨ event = .enqueue cmd.cmd := by
  cases event with
  | enqueue new =>
    obtain rfl := step_enqueue moved
    rcases inFlight with pending | held | posted
    · rcases List.mem_append.mp pending with old | new
      · split at old
        next => contradiction
        next => exact Or.inl (Or.inl old)
      · rw [List.mem_singleton.mp new]
        exact Or.inr rfl
    · exact Or.inl (Or.inr (Or.inl held))
    · exact Or.inl (Or.inr (Or.inr posted))
  | pop =>
    obtain ⟨front, rest, _, queue, rfl⟩ := step_pop moved
    rcases inFlight with pending | held | posted
    · exact Or.inl (Or.inl (by rw [queue]; exact List.mem_cons_of_mem _ pending))
    · obtain rfl := Option.some.inj held
      exact Or.inl (Or.inl (by rw [queue]; exact List.mem_cons_self))
    · exact Or.inl (Or.inr (Or.inr posted))
  | post =>
    obtain ⟨mine, held, rfl⟩ := step_post moved
    rcases inFlight with pending | none | posted
    · exact Or.inl (Or.inl pending)
    · contradiction
    · rcases List.mem_append.mp posted with old | new
      · exact Or.inl (Or.inr (Or.inr old))
      · rw [List.mem_singleton.mp new]
        exact Or.inl (Or.inr (Or.inl held))
  | execute i =>
    obtain ⟨done, _, ⟨calls, _, rfl⟩ | ⟨failure, _, _, rfl⟩ | ⟨_, rfl⟩⟩ := step_execute moved
    · exact Or.inl (inFlight.imp_right (Or.imp_right List.mem_of_mem_eraseIdx))
    · exact Or.inl (inFlight.imp_right (Or.imp_right List.mem_of_mem_eraseIdx))
    · exact Or.inl inFlight
  | clientCall op =>
    obtain ⟨clients, _, rfl⟩ := step_clientCall moved
    exact Or.inl inFlight

/-- What can stand for a request: the request, or a later snapshot for all clients. -/
def StandsFor (request cmd : CommandPtr) : Prop :=
  request.addr ≤ cmd.addr ∧ cmd.cmd.type = .sendSnapshot ∧ (cmd = request ∨ cmd.cmd.clientId = none)

/-- The request has been served, or its stand-in is still on the way. -/
structure Awaited (session : SessionAddr) (request : CommandPtr) (state : Broadcaster) : Prop where
  pushed : request ∈ state.trace.pushed
  older : request.addr < state.trace.pushed.length
  answered : Served session request.addr state ∨
    ∃ cmd, InFlight state cmd ∧ cmd.addr = state.standIn request.addr ∧ StandsFor request cmd

/-- A handler for all clients that stands for a request of the client finds it subscribed. -/
def ReachesAbsorbed (c : ClientId) (state : Broadcaster) : Event → Prop
  | .execute i => ∀ cmd request, state.posted[i]? = some cmd → cmd.cmd.clientId = none →
      request ∈ state.trace.pushed → request.cmd.clientId = some c → state.standIn request.addr = cmd.addr →
        state.clients.isSubscribed c = .ok true
  | _ => True

/-- What the run of a request allows at each step: snapshots only, and the
client keeps its session. -/
def Allowed (c : ClientId) (session : SessionAddr) (state : Broadcaster) (event : Event) : Prop :=
  state.clients.getSession c = .ok (some session) ∧ ∀ cmd, event = .enqueue cmd → cmd.type = .sendSnapshot

theorem mem_eraseIdx_or {α : Type} {l : List α} {i : Nat} {a b : α} (member : a ∈ l) (at_i : l[i]? = some b) :
    a = b ∨ a ∈ l.eraseIdx i := by
  obtain ⟨j, bound, rfl⟩ := List.mem_iff_getElem.mp member
  by_cases same : j = i
  · subst same
    rw [List.getElem?_eq_getElem bound] at at_i
    exact Or.inl (Option.some.inj at_i)
  · exact Or.inr (List.mem_eraseIdx_iff_getElem.mpr ⟨j, bound, same, rfl⟩)

theorem getSnapshot_of_type {cmd : BroadcastCommand} (type : cmd.type = .sendSnapshot) :
    ∃ data, cmd.data = .snapshot data ∧ cmd.getSnapshot = some data := by
  unfold BroadcastCommand.type at type
  split at type
  next data same => exact ⟨data, same, by rw [BroadcastCommand.getSnapshot, same]⟩
  next => contradiction

/-- The handler of a stand-in passes its snapshot to the session, or runs into a null session. -/
theorem handler_standsFor {clients : ClientList} {c : ClientId} {session : SessionAddr} {request cmd : CommandPtr}
    (bound : clients.getSession c = .ok (some session)) (requested : request.cmd.clientId = some c)
    (stands : StandsFor request cmd) (reached : cmd.cmd.clientId = none → clients.isSubscribed c = .ok true) :
    handler cmd.cmd clients = .error .undefinedBehaviour ∨
      ∃ calls data, handler cmd.cmd clients = .ok calls ∧ cmd.cmd.data = .snapshot data ∧
        .sendMsg session data.serialize ∈ calls := by
  obtain ⟨_, type, same | untargeted⟩ := stands
  · subst same
    obtain ⟨data, isSnapshot, got⟩ := getSnapshot_of_type type
    refine Or.inr ⟨[.sendMsg session data.serialize], data, ?_, isSnapshot, List.mem_singleton.mpr rfl⟩
    simp only [handler, type, requested, got, handleSendSnapshotTo, ClientList.broadcastToCertain, bound]
    rfl
  · obtain ⟨data, isSnapshot, got⟩ := getSnapshot_of_type type
    have member := ClientList.mem_getSubscribedSessions bound (reached untargeted)
    have result : handler cmd.cmd clients = clients.broadcastToSubscribed data.serialize := by
      simp only [handler, type, untargeted, got, handleSendSnapshotAll]
    rw [result, ClientList.broadcastToSubscribed]
    rcases ClientList.broadcast_cases data.serialize clients.getSubscribedSessions with failed | ⟨calls, sent, all⟩
    · exact Or.inl failed
    · exact Or.inr ⟨calls, data, sent, isSnapshot, all session member⟩

theorem Served.mono {session : SessionAddr} {addr : Nat} {state after : Broadcaster}
    (served : Served session addr state) (grows : state.delivered ⊆ after.delivered) : Served session addr after := by
  obtain ⟨delivery, member, rest⟩ := served
  exact ⟨delivery, grows member, rest⟩

theorem Awaited.enqueue {c : ClientId} {session : SessionAddr} {request : CommandPtr} {state after : Broadcaster}
    {cmd : BroadcastCommand} (awaited : Awaited session request state)
    (allowed : Allowed c session state (.enqueue cmd)) (moved : step state (.enqueue cmd) = some after) :
    Awaited session request after := by
  obtain rfl := step_enqueue moved
  obtain ⟨pushed, older, answered⟩ := awaited
  refine ⟨List.mem_append_left _ pushed, by simp only [List.length_append]; omega, ?_⟩
  rcases answered with served | ⟨p, inFlight, address, stands⟩
  · exact Or.inl (served.mono (List.Subset.refl _))
  right
  have fresh : request.addr ≠ state.trace.pushed.length := by omega
  by_cases clears : cmd.clientId = none ∧ state.standIn request.addr ∈ state.trace.queue.map CommandPtr.addr
  · -- the new command clears the stand-in away and takes its place
    refine ⟨state.trace.next cmd, Or.inl (List.mem_append_right _ List.mem_cons_self), ?_, ?_⟩
    · simp only [standInAfter, if_neg fresh, if_pos clears, CommandQueue.Trace.next]
    · exact ⟨older.le, allowed.2 cmd rfl, Or.inr clears.1⟩
  · refine ⟨p, ?_, by simp only [standInAfter, if_neg fresh, if_neg clears, address], stands⟩
    rcases inFlight with pending | onTheWay
    · have targeted : cmd.clientId ≠ none := by
        intro untargeted
        exact clears ⟨untargeted, address ▸ List.mem_map_of_mem pending⟩
      left
      simp only [CommandQueue.push_targeted (p := state.trace.next cmd) targeted]
      exact List.mem_append_left _ pending
    · exact Or.inr onTheWay

theorem Awaited.pop {session : SessionAddr} {request : CommandPtr} {state after : Broadcaster}
    (awaited : Awaited session request state) (moved : step state .pop = some after) :
    Awaited session request after := by
  obtain ⟨pushed, older, answered⟩ := awaited
  obtain ⟨front, rest, idle, queue, rfl⟩ := step_pop moved
  refine ⟨pushed, older, ?_⟩
  rcases answered with served | ⟨p, inFlight, address, stands⟩
  · exact Or.inl served
  refine Or.inr ⟨p, ?_, address, stands⟩
  rcases inFlight with pending | held | posted
  · rw [queue] at pending
    rcases List.mem_cons.mp pending with same | later
    · exact Or.inr (Or.inl (by rw [same]))
    · exact Or.inl later
  · rw [held] at idle
    contradiction
  · exact Or.inr (Or.inr posted)

theorem Awaited.post {session : SessionAddr} {request : CommandPtr} {state after : Broadcaster}
    (awaited : Awaited session request state) (moved : step state .post = some after) :
    Awaited session request after := by
  obtain ⟨pushed, older, answered⟩ := awaited
  obtain ⟨cmd, held, rfl⟩ := step_post moved
  refine ⟨pushed, older, ?_⟩
  rcases answered with served | ⟨p, inFlight, address, stands⟩
  · exact Or.inl served
  refine Or.inr ⟨p, ?_, address, stands⟩
  rcases inFlight with pending | mine | posted
  · exact Or.inl pending
  · cases Option.some.inj (held.symm.trans mine)
    exact Or.inr (Or.inr (List.mem_append_right _ List.mem_cons_self))
  · exact Or.inr (Or.inr (List.mem_append_left _ posted))

theorem Awaited.execute {c : ClientId} {session : SessionAddr} {request : CommandPtr} {state after : Broadcaster}
    {i : Nat} (awaited : Awaited session request state) (requested : request.cmd.clientId = some c)
    (bound : state.clients.getSession c = .ok (some session)) (reaches : ReachesAbsorbed c state (.execute i))
    (moved : step state (.execute i) = some after) : Awaited session request after := by
  obtain ⟨pushed, older, answered⟩ := awaited
  obtain ⟨cmd, at_i, result⟩ := step_execute moved
  have kept : state.delivered ⊆ after.delivered ∧ after.trace = state.trace ∧ after.standIn = state.standIn ∧
      after.held = state.held ∧ ∀ p ∈ state.posted, p = cmd ∨ p ∈ after.posted := by
    rcases result with ⟨calls, _, rfl⟩ | ⟨failure, _, _, rfl⟩ | ⟨_, rfl⟩
    · exact ⟨List.subset_append_left _ _, rfl, rfl, rfl, fun p member => mem_eraseIdx_or member at_i⟩
    · exact ⟨List.Subset.refl _, rfl, rfl, rfl, fun p member => mem_eraseIdx_or member at_i⟩
    · exact ⟨List.Subset.refl _, rfl, rfl, rfl, fun p member => Or.inr member⟩
  obtain ⟨delivered, trace, standIn, held, posted⟩ := kept
  refine ⟨by rwa [trace], by rwa [trace], ?_⟩
  rcases answered with served | ⟨p, inFlight, address, stands⟩
  · exact Or.inl (served.mono delivered)
  have onTheWay (still : InFlight after p) : ∃ cmd, InFlight after cmd ∧ cmd.addr = after.standIn request.addr ∧
      StandsFor request cmd := ⟨p, still, by rw [standIn, address], stands⟩
  rcases inFlight with pending | mine | member
  · exact Or.inr (onTheWay (Or.inl (by rwa [trace])))
  · exact Or.inr (onTheWay (Or.inr (Or.inl (by rw [held, mine]))))
  rcases posted p member with rfl | other
  · -- the stand-in itself runs
    have outcome := handler_standsFor bound requested stands fun untargeted =>
      reaches p request at_i untargeted pushed requested address.symm
    rcases result with ⟨calls, sent, rfl⟩ | ⟨failure, failed, defined, rfl⟩ | ⟨_, rfl⟩
    · rcases outcome with undefined | ⟨sentCalls, data, same, isSnapshot, call⟩
      · rw [sent] at undefined
        contradiction
      · cases Except.ok.inj (sent.symm.trans same)
        exact Or.inl
          ⟨⟨p, _⟩, List.mem_append_right _ (List.mem_map_of_mem call), stands.1, data, isSnapshot, rfl⟩
    · rcases outcome with undefined | ⟨_, _, same, _⟩
      · exact absurd (Except.error.inj (failed.symm.trans undefined)) defined
      · rw [failed] at same
        contradiction
    · exact Or.inr (onTheWay (Or.inr (Or.inr member)))
  · exact Or.inr (onTheWay (Or.inr (Or.inr other)))

theorem Awaited.step {c : ClientId} {session : SessionAddr} {request : CommandPtr} {state after : Broadcaster}
    {event : Event} (awaited : Awaited session request state) (requested : request.cmd.clientId = some c)
    (allowed : Allowed c session state event) (reaches : ReachesAbsorbed c state event)
    (moved : step state event = some after) : Awaited session request after := by
  cases event with
  | enqueue cmd => exact awaited.enqueue allowed moved
  | pop => exact awaited.pop moved
  | post => exact awaited.post moved
  | execute i => exact awaited.execute requested allowed.1 reaches moved
  | clientCall op =>
    obtain ⟨clients, _, rfl⟩ := step_clientCall moved
    exact ⟨awaited.pushed, awaited.older, awaited.answered⟩

/-- A client asks for a snapshot over a session that it keeps, and in the end
nothing is left to do. -/
structure RequestRun (c : ClientId) (session : SessionAddr) (snapshot : Snapshot) (start : Broadcaster)
    (events : List Event) (last : Broadcaster) : Prop where
  run : exec step start (.enqueue ⟨some c, .snapshot snapshot⟩ :: events) = some last
  snapshots : ∀ cmd, .enqueue cmd ∈ events → cmd.type = .sendSnapshot
  bound : Always step (fun state => state.clients.getSession c = .ok (some session)) start
    (.enqueue ⟨some c, .snapshot snapshot⟩ :: events)
  drained : last.Drained

/-- A request for a snapshot is served as long as every broadcast that has
absorbed it finds the client subscribed. -/
theorem served_of_reachesAbsorbed (c : ClientId) (session : SessionAddr) (snapshot : Snapshot)
    (start last : Broadcaster) (events : List Event) (request : RequestRun c session snapshot start events last)
    (reaches : Guarded step (ReachesAbsorbed c) start (.enqueue ⟨some c, .snapshot snapshot⟩ :: events)) :
    Served session start.trace.pushed.length last := by
  obtain ⟨run, snapshots, bound, drained⟩ := request
  obtain ⟨asked, moved, rest⟩ := exec_cons_split run
  let ask := start.trace.next ⟨some c, .snapshot snapshot⟩
  have initial : Awaited session ask asked := by
    obtain rfl := step_enqueue moved
    have fresh : ask.addr < (start.trace.pushed ++ [ask]).length := by simp [ask, CommandQueue.Trace.next]
    refine ⟨List.mem_append_right _ List.mem_cons_self, fresh, Or.inr ⟨ask, ?_, ?_, le_rfl, rfl, Or.inl rfl⟩⟩
    · exact Or.inl (List.mem_append_right _ List.mem_cons_self)
    · simp [ask, standInAfter, CommandQueue.Trace.next]
  have onlySnapshots : Guarded step (fun _ event => ∀ cmd, event = .enqueue cmd → cmd.type = .sendSnapshot) asked
      events := by
    refine guarded_of_forall_mem step (fun event member cmd same => ?_) asked
    subst same
    exact snapshots cmd member
  have guarded := ((bound.guarded.tail moved).and onlySnapshots).and (reaches.tail moved)
  have awaited := exec_guarded_invariant (fun _ _ _ awaited guard moved =>
    Awaited.step awaited rfl guard.1 guard.2 moved) rest guarded initial
  rcases awaited.answered with served | ⟨cmd, inFlight, _⟩
  · exact served
  · obtain ⟨queue, held, posted⟩ := drained
    rcases inFlight with pending | mine | member
    · rw [queue] at pending; contradiction
    · rw [held] at mine; contradiction
    · rw [posted] at member; contradiction

/-- A snapshot for all clients comes right after the request and is carried through. -/
def absorbingEvents : List Event := [.enqueue { data := .snapshot {} }, .pop, .post, .execute 0]

theorem absorbingRun {clients : ClientList} {calls : List SessionCall}
    (bound : clients.getSession 1 = .ok (some 7)) (sent : handler { data := .snapshot {} } clients = .ok calls) :
    ∃ last, RequestRun 1 7 {} { clients } absorbingEvents last ∧ last.delivered.map Delivery.call = calls := by
  have snapshots : ∀ cmd, .enqueue cmd ∈ absorbingEvents → cmd.type = .sendSnapshot := by
    intro cmd member
    obtain rfl : cmd = { data := .snapshot {} } := by simpa [absorbingEvents] using member
    rfl
  obtain ⟨last, run, drained, delivered⟩ : ∃ last, exec step { clients }
      (.enqueue ⟨some 1, .snapshot {}⟩ :: absorbingEvents) = some last ∧ last.Drained ∧
        last.delivered.map Delivery.call = calls := by
    refine ⟨_, exec_cons_of rfl (exec_cons_of rfl (exec_cons_of rfl (exec_cons_of rfl
      (exec_cons_of (step_execute_ok rfl rfl sent) (exec_nil _ _))))), ⟨rfl, rfl, rfl⟩, ?_⟩
    simp [Function.comp_def]
  refine ⟨last, ⟨run, snapshots, ?_, drained⟩, delivered⟩
  exact always_cons bound rfl (always_cons bound rfl (always_cons bound rfl (always_cons bound rfl
    (always_cons bound (step_execute_ok rfl rfl sent) (always_nil bound)))))

/-- The broadcast that absorbs the request of a client that has not subscribed passes it by. -/
theorem absorbed_request_not_served :
    ¬∀ ops clients before start c session snapshot events last, exec ClientList.step {} ops = some clients →
      exec step { clients } before = some start → RequestRun c session snapshot start events last →
        Served session start.trace.pushed.length last := by
  intro claim
  let clients : ClientList := ({} : ClientList).addSession 1 (some 7)
  have bound : clients.getSession 1 = .ok (some 7) := rfl
  have nothing : handler { data := .snapshot {} } clients = .ok [] := rfl
  obtain ⟨last, request, calls⟩ := absorbingRun bound nothing
  obtain ⟨delivery, member, _⟩ := claim [.addSession 1 (some 7)] clients [] _ 1 7 {} _ _ rfl rfl request
  rw [List.map_eq_nil_iff.mp calls] at member
  contradiction

/-- The same run for a client that has subscribed. -/
theorem absorbed_request_served : ∃ last : Broadcaster, last.Drained ∧ Served 7 0 last := by
  let clients : ClientList := (ClientList.subscribe 1 (({} : ClientList).addSession 1 (some 7))).2
  have bound : clients.getSession 1 = .ok (some 7) := rfl
  obtain ⟨last, request, _⟩ := absorbingRun bound rfl
  refine ⟨last, request.drained, served_of_reachesAbsorbed 1 7 {} _ _ _ request ?_⟩
  refine guarded_cons trivial rfl (guarded_cons trivial rfl (guarded_cons trivial rfl (guarded_cons trivial rfl
    (guarded_cons ?_ rfl (guarded_nil _ _ _)))))
  exact fun _ _ _ _ _ _ _ => rfl

end Broadcaster

end Stakan
