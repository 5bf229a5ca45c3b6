import Stakan.Broadcaster.Absorption

namespace Stakan

/-- The types that a command's data can have or be asked for. The source
calls two of them `MDUpdate`: that of the queue and that of `common`. -/
inductive PayloadType
  | snapshot
  | queuedMDUpdate
  | mdUpdate
  deriving DecidableEq

/-- The objects of a type. -/
def PayloadType.Object : PayloadType → Type
  | .snapshot => Snapshot
  | .queuedMDUpdate => QueuedMDUpdate
  | .mdUpdate => MDUpdate

/-- An object with its type. -/
abbrev CommandPayload := (T : PayloadType) × T.Object

/-- What the constructors of the two classes are given. -/
def CommandData.payload : CommandData → CommandPayload
  | .snapshot data => ⟨.snapshot, data⟩
  | .mdUpdate data => ⟨.queuedMDUpdate, data⟩

/-- The bytes of an object. The update of the queue has no `serialize`. -/
def CommandPayload.serialize : CommandPayload → Option (List UInt8)
  | ⟨.snapshot, s⟩ => some (Snapshot.serialize s)
  | ⟨.queuedMDUpdate, _⟩ => none
  | ⟨.mdUpdate, u⟩ => some (MDUpdate.serialize u)

/-- The type that `run` asks for when it dispatches a command. -/
def CommandType.asked : CommandType → PayloadType
  | .sendSnapshot => .snapshot
  | .sendMDUpdate => .mdUpdate

namespace BroadcastCommand

def getDataType (cmd : BroadcastCommand) : PayloadType :=
  match cmd.data with
  | .snapshot _ => .snapshot
  | .mdUpdate _ => .queuedMDUpdate

def getDataPtr : (cmd : BroadcastCommand) → cmd.getDataType.Object
  | ⟨_, .snapshot data⟩ => data
  | ⟨_, .mdUpdate data⟩ => data

/-- The data if it has the type that is asked for. -/
def getData (T : PayloadType) (cmd : BroadcastCommand) : Option T.Object :=
  if same : cmd.getDataType = T then some (same ▸ cmd.getDataPtr) else none

theorem payload_eq (cmd : BroadcastCommand) : cmd.data.payload = ⟨cmd.getDataType, cmd.getDataPtr⟩ := by
  obtain ⟨_, _ | _⟩ := cmd <;> rfl

/-- The optional holds the data the command was built with, or nothing. -/
theorem getData_eq_some {T : PayloadType} {cmd : BroadcastCommand} {data : T.Object} :
    cmd.getData T = some data ↔ cmd.data.payload = ⟨T, data⟩ := by
  rw [payload_eq, getData]
  by_cases same : cmd.getDataType = T
  · subst same
    rw [dif_pos rfl, Option.some_inj]
    exact ⟨fun object => congrArg (Sigma.mk _) object, fun whole => eq_of_heq (Sigma.mk.inj whole).2⟩
  · rw [dif_neg same]
    constructor
    · intro some
      contradiction
    · intro whole
      exact absurd (congrArg Sigma.fst whole) same

theorem getSnapshot_eq (cmd : BroadcastCommand) : cmd.getSnapshot = cmd.getData .snapshot := by
  obtain ⟨_, _ | _⟩ := cmd <;> rfl

theorem getMDUpdate_eq (cmd : BroadcastCommand) : cmd.getMDUpdate = cmd.getData .mdUpdate := by
  obtain ⟨_, _ | _⟩ := cmd <;> rfl

/-- No command carries the update of `common`. -/
theorem getMDUpdate_eq_none (cmd : BroadcastCommand) : cmd.getMDUpdate = none := by
  obtain ⟨_, _ | _⟩ := cmd <;> rfl

end BroadcastCommand

namespace Broadcaster
open LabelledRun

/-- The optional that `run` follows holds the data the command was built
with, and the bytes that reach the client list are those of the data. -/
def PassesPayload (cmd : BroadcastCommand) (clients : ClientList) : Prop :=
  ∃ data bytes, cmd.getData cmd.type.asked = some data ∧ cmd.data.payload = ⟨cmd.type.asked, data⟩ ∧
    cmd.data.payload.serialize = some bytes ∧
    (handler cmd clients = clients.broadcastToSubscribed bytes ∨
      ∃ id, handler cmd clients = clients.broadcastToCertain id bytes)

/-- Every command that is dispatched has been enqueued and passes its payload on. -/
def DispatchesPayloads (clients : ClientList) (events : List Event) : Prop :=
  ∀ before i after state cmd, events = before ++ .execute i :: after →
    exec step { clients } before = some state → state.posted[i]? = some cmd →
      .enqueue cmd.cmd ∈ before ∧ PassesPayload cmd.cmd state.clients

/-- A command that is dispatched is a snapshot command. -/
def DispatchesSnapshot (state : Broadcaster) : Event → Prop
  | .execute i => ∀ cmd, state.posted[i]? = some cmd → cmd.cmd.type = .sendSnapshot
  | _ => True

theorem passesPayload_of_snapshot {cmd : BroadcastCommand} (type : cmd.type = .sendSnapshot) (clients : ClientList) :
    PassesPayload cmd clients := by
  obtain ⟨data, _, got⟩ := getSnapshot_of_type type
  have found : cmd.getData .snapshot = some data := cmd.getSnapshot_eq.symm.trans got
  have built := BroadcastCommand.getData_eq_some.mp found
  have bytes : cmd.data.payload.serialize = some data.serialize := by rw [built]; rfl
  rw [PassesPayload, type]
  refine ⟨data, data.serialize, found, built, bytes, ?_⟩
  cases target : cmd.clientId with
  | none => exact Or.inl (by simp only [handler, type, target, got, handleSendSnapshotAll])
  | some id => exact Or.inr ⟨id, by simp only [handler, type, target, got, handleSendSnapshotTo]⟩

/-- The optional that is asked for the update of `common` is always empty. -/
theorem not_passesPayload_of_mdUpdate {cmd : BroadcastCommand} (type : cmd.type = .sendMDUpdate)
    (clients : ClientList) : ¬PassesPayload cmd clients := by
  rw [PassesPayload, type]
  rintro ⟨data, _, found, _⟩
  have empty := cmd.getMDUpdate_eq.symm.trans cmd.getMDUpdate_eq_none
  exact absurd (empty.symm.trans found) nofun

theorem passesPayload_iff (cmd : BroadcastCommand) (clients : ClientList) :
    PassesPayload cmd clients ↔ cmd.type = .sendSnapshot := by
  cases type : cmd.type with
  | sendSnapshot => exact iff_of_true (passesPayload_of_snapshot type clients) rfl
  | sendMDUpdate => exact iff_of_false (not_passesPayload_of_mdUpdate type clients) nofun

/-- Nothing is on its way that has not been enqueued. -/
theorem InFlight.enqueued {clients : ClientList} {events : List Event} {state : Broadcaster} {cmd : CommandPtr}
    (inFlight : InFlight state cmd) (run : exec step { clients } events = some state) :
    .enqueue cmd.cmd ∈ events := by
  induction events using List.reverseRecOn generalizing state with
  | nil =>
    obtain rfl := Option.some.inj run
    rcases inFlight with pending | held | posted
    · exact absurd pending List.not_mem_nil
    · contradiction
    · exact absurd posted List.not_mem_nil
  | append_singleton events event ih =>
    obtain ⟨former, first, moved⟩ := exec_snoc_split run
    rcases inFlight.before moved with earlier | rfl
    · exact List.mem_append_left _ (ih earlier first)
    · exact List.mem_append_right _ List.mem_cons_self

/-- Dispatched commands pass their payloads on exactly in the runs that
dispatch snapshot commands only. -/
theorem dispatchesPayloads_iff (clients : ClientList) (events : List Event) :
    DispatchesPayloads clients events ↔ Guarded step DispatchesSnapshot { clients } events := by
  constructor
  · intro passes before event after state split run
    cases event with
    | execute i =>
      intro cmd at_i
      exact (passesPayload_iff _ _).mp (passes before i after state cmd split run at_i).2
    | _ => trivial
  · intro guarded before i after state cmd split run at_i
    have onTheWay : InFlight state cmd := Or.inr (Or.inr (List.mem_of_getElem? at_i))
    have snapshot := guarded before (.execute i) after state split run cmd at_i
    exact ⟨onTheWay.enqueued run, (passesPayload_iff _ _).mpr snapshot⟩

/-- The optional of an MD update is empty when its handler follows it. -/
theorem mdUpdate_not_dispatched : ¬∀ clients events, DispatchesPayloads clients events := by
  intro claim
  let update : BroadcastCommand := { data := .mdUpdate ⟨.add, true, {}⟩ }
  obtain ⟨state, run, posted⟩ : ∃ state, exec step { clients := {} } [.enqueue update, .pop, .post] = some state ∧
      state.posted[0]? = some ⟨0, update⟩ := ⟨_, rfl, rfl⟩
  have passed := (claim {} _ [.enqueue update, .pop, .post] 0 [] state _ rfl run posted).2
  exact not_passesPayload_of_mdUpdate rfl _ passed

end Broadcaster

end Stakan
