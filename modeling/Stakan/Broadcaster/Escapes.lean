import Stakan.Broadcaster.Absorption

namespace Stakan

namespace ClientList

/-- A message for one client is sent exactly if the client is registered with
a session that is not null. -/
theorem broadcastToCertain_eq_ok {id : ClientId} {message : List UInt8} {clients : ClientList}
    {calls : List SessionCall} : clients.broadcastToCertain id message = .ok calls ↔
      ∃ session, clients.getSession id = .ok (some session) ∧ calls = [.sendMsg session message] := by
  constructor
  · exact broadcastToCertain_ok
  · rintro ⟨session, bound, rfl⟩
    simp only [broadcastToCertain, bound]
    rfl

end ClientList

namespace Broadcaster
open LabelledRun

/-- The command that `SendSnapshotTo` stands for. -/
def SendSnapshotTo (cmd : BroadcastCommand) : Prop := ∃ c data, cmd = ⟨some c, .snapshot data⟩

/-- The io_context runs the handler of the command, which is the `i`-th one posted. -/
def Runs (state : Broadcaster) (i : Nat) (cmd : CommandPtr) : Prop :=
  state.undefined = false ∧ state.posted[i]? = some cmd

/-- What is to happen when a handler runs: it returns, and the broadcaster
goes on. The snapshot goes to the client's session, or nowhere if the client
has been removed. -/
def Contained (state : Broadcaster) : Event → Prop
  | .execute i => ∀ cmd, state.Runs i cmd →
      ∃ calls after, handler cmd.cmd state.clients = .ok calls ∧ step state (.execute i) = some after ∧
        after.undefined = false ∧ after.clients = state.clients ∧
        ∀ c data, cmd.cmd = ⟨some c, .snapshot data⟩ →
          (state.clients.hasClient c = false → calls = []) ∧
          ∀ session, state.clients.getSession c = .ok (some session) → calls = [.sendMsg session data.serialize]
  | _ => True

/-- When the handler of a command runs, its client is registered with a session that is not null. -/
def TargetPresent (state : Broadcaster) : Event → Prop
  | .execute i => ∀ cmd c, state.Runs i cmd → cmd.cmd.clientId = some c →
      ∃ session, state.clients.getSession c = .ok (some session)
  | _ => True

/-- Every command on the way is one for a single client. -/
structure OnlyTargeted (state : Broadcaster) : Prop where
  queue : ∀ cmd ∈ state.trace.queue, SendSnapshotTo cmd.cmd
  held : ∀ cmd, state.held = some cmd → SendSnapshotTo cmd.cmd
  posted : ∀ cmd ∈ state.posted, SendSnapshotTo cmd.cmd

theorem OnlyTargeted.of_inFlight {state : Broadcaster} {cmd : CommandPtr} (only : state.OnlyTargeted)
    (inFlight : InFlight state cmd) : SendSnapshotTo cmd.cmd := by
  rcases inFlight with pending | held | posted
  · exact only.queue cmd pending
  · exact only.held cmd held
  · exact only.posted cmd posted

theorem OnlyTargeted.step {state after : Broadcaster} {event : Event} (only : state.OnlyTargeted)
    (targeted : ∀ cmd, event = .enqueue cmd → SendSnapshotTo cmd) (moved : step state event = some after) :
    after.OnlyTargeted := by
  have still : ∀ cmd, InFlight after cmd → SendSnapshotTo cmd.cmd := by
    intro cmd inFlight
    rcases inFlight.before moved with earlier | enqueued
    · exact only.of_inFlight earlier
    · exact targeted cmd.cmd enqueued
  exact ⟨fun cmd pending => still cmd (Or.inl pending), fun cmd held => still cmd (Or.inr (Or.inl held)),
    fun cmd posted => still cmd (Or.inr (Or.inr posted))⟩

theorem handler_targeted_eq_ok {c : ClientId} {data : Snapshot} {clients : ClientList} {calls : List SessionCall} :
    handler ⟨some c, .snapshot data⟩ clients = .ok calls ↔
      ∃ session, clients.getSession c = .ok (some session) ∧ calls = [.sendMsg session data.serialize] := by
  have sent : handler ⟨some c, .snapshot data⟩ clients = clients.broadcastToCertain c data.serialize := rfl
  rw [sent, ClientList.broadcastToCertain_eq_ok]

/-- The handler of a targeted command returns exactly if it finds a session, and then it does what it should. -/
theorem OnlyTargeted.contained_iff_present {state : Broadcaster} (only : state.OnlyTargeted) (event : Event) :
    Contained state event ↔ TargetPresent state event := by
  cases event with
  | execute i =>
    constructor
    · intro contained cmd c runs target
      obtain ⟨calls, after, returned, _⟩ := contained cmd runs
      obtain ⟨d, data, same⟩ := only.posted cmd (List.mem_of_getElem? runs.2)
      rw [same] at target returned
      obtain rfl := Option.some.inj target
      obtain ⟨session, bound, _⟩ := handler_targeted_eq_ok.mp returned
      exact ⟨session, bound⟩
    · intro present cmd runs
      obtain ⟨c, data, same⟩ := only.posted cmd (List.mem_of_getElem? runs.2)
      obtain ⟨session, bound⟩ := present cmd c runs (by rw [same])
      have sent : handler cmd.cmd state.clients = .ok [.sendMsg session data.serialize] := by
        rw [same]
        exact handler_targeted_eq_ok.mpr ⟨session, bound, rfl⟩
      refine ⟨_, _, sent, step_execute_ok runs.1 runs.2 sent, runs.1, rfl, fun d data' same' => ?_⟩
      obtain ⟨rfl, rfl⟩ : c = d ∧ data = data' := by
        rw [same] at same'
        simpa using same'
      refine ⟨fun unknown => ?_, fun session' bound' => ?_⟩
      · obtain ⟨ctx, registered, _⟩ := ClientList.getSession_eq_ok.mp bound
        simp [ClientList.hasClient, registered] at unknown
      · have one := Except.ok.inj (bound.symm.trans bound')
        rw [Option.some.inj one]
  | _ => exact Iff.rfl

/-- No handler lets an exception escape exactly if each one that runs finds
its client registered with a session. -/
theorem contained_iff (events : List Event) (targeted : ∀ cmd, .enqueue cmd ∈ events → SendSnapshotTo cmd) :
    Guarded step Contained { clients := {} } events ↔ Guarded step TargetPresent { clients := {} } events := by
  have only : ∀ before event after s, events = before ++ event :: after →
      exec step { clients := {} } before = some s → s.OnlyTargeted := by
    intro before event after s split first
    have enqueues : ∀ event ∈ before, ∀ cmd, event = .enqueue cmd → SendSnapshotTo cmd := by
      intro event member cmd same
      refine targeted cmd ?_
      rw [split, ← same]
      exact List.mem_append_left _ member
    have initial : OnlyTargeted { clients := {} } :=
      ⟨fun _ member => by simp at member, fun _ same => by contradiction, fun _ member => by simp at member⟩
    exact exec_invariant_of_forall_mem (fun _ _ _ only targeted moved => OnlyTargeted.step only targeted moved) first
      enqueues initial
  constructor
  · intro contained before event after s split first
    have here := (only before event after s split first).contained_iff_present event
    exact here.mp (contained before event after s split first)
  · intro present before event after s split first
    have here := (only before event after s split first).contained_iff_present event
    exact here.mpr (present before event after s split first)

/-- A client asks for a snapshot and is gone before the handler runs. -/
def abandonedRequest : List Event :=
  [.clientCall (.addSession 1 (some 7)), .enqueue ⟨some 1, .snapshot {}⟩, .pop, .post,
    .clientCall (.removeSession 1), .execute 0]

theorem abandoned_request_escapes : ¬∀ events last, exec step { clients := {} } events = some last →
    (∀ cmd, .enqueue cmd ∈ events → SendSnapshotTo cmd) → Guarded step Contained { clients := {} } events := by
  intro claim
  have contained := claim abandonedRequest _ rfl (by
    intro cmd member
    exact ⟨1, {}, by simpa [abandonedRequest] using member⟩)
  obtain ⟨calls, after, returned, _⟩ := contained (abandonedRequest.take 5) (.execute 0) [] _ rfl rfl _ ⟨rfl, rfl⟩
  contradiction

/-- A client that stays gets its snapshot. -/
theorem served_request_contained : Guarded step Contained { clients := {} }
    [.clientCall (.addSession 1 (some 7)), .enqueue ⟨some 1, .snapshot {}⟩, .pop, .post, .execute 0] := by
  refine (contained_iff _ ?_).mpr ?_
  · intro cmd member
    exact ⟨1, {}, by simpa using member⟩
  · refine guarded_cons trivial rfl (guarded_cons trivial rfl (guarded_cons trivial rfl (guarded_cons trivial rfl
      (guarded_cons ?_ rfl (guarded_nil _ _ _)))))
    intro cmd c runs target
    cases runs.2
    cases target
    exact ⟨7, rfl⟩

end Broadcaster

end Stakan
