import Stakan.ClientLib.OrderBookClient
import Stakan.TcpClient.Joining

namespace Stakan.ClientLib
open LabelledRun
open TcpClient (Lifecycle CallerPhase)

/-- An error has been reported, and neither a successful `Connect` nor a `Disconnect` has returned since. -/
def ErrorPending (history : List Notice) : Prop :=
  ∃ earlier message later, history = earlier ++ .onError .error message :: later ∧
    .connected ∉ later ∧ .disconnected ∉ later

namespace OrderBookClient

/-- The state says what has become of the connection. -/
structure StateTold (s : OrderBookClient) : Prop where
  agrees : s.client.caller = .idle → (s.state = .connected ↔ s.isConnected = true)
  inError : ErrorPending s.history → s.state = .error

/-- No error is reported, and the background thread clears the flag only in a
`Disconnect` that is past its check. -/
def Untroubled (s : OrderBookClient) : Event → Prop
  | .client (.connectFails _) _ => False
  | .client event _ => s.client.ClearsInDisconnect event
  | .request _ what => s.client.connected = true → what = none

/-- What the state tells about the flag in each phase of the owner. -/
def Tells (state : ConnectionState) (connected : Bool) : CallerPhase → Prop
  | .idle => state = .connected ↔ connected = true
  | .closing | .joining | .reporting => connected = false
  | _ => True

theorem tells_connected {connected : Bool} (on : connected = true) : Tells .connected connected .idle :=
  iff_of_true rfl on

theorem tells_disconnected {connected : Bool} (off : connected = false) : Tells .disconnected connected .idle :=
  iff_of_false (by decide) (by simp [off])

/-- No error has been reported, and the state is none. -/
structure Errorless (s : OrderBookClient) : Prop where
  silent : ∀ message, CallbacksAdapter.onError message ∉ s.history
  state : s.state ≠ .error

structure Telling (s : OrderBookClient) : Prop where
  joining : s.client.Joining
  phase : Tells s.state s.client.connected s.client.caller
  errorless : s.Errorless

theorem telling_initial : Telling {} where
  joining := Lifecycle.joining_initial
  phase := tells_disconnected rfl
  errorless := ⟨fun _ => List.not_mem_nil, nofun⟩

theorem Errorless.notify {s : OrderBookClient} (errorless : s.Errorless) (notice : Notice)
    (other : ∀ message, CallbacksAdapter.onError message ≠ notice) : (s.notify notice).Errorless where
  silent message member := by
    rw [notify_history, List.mem_append, List.mem_singleton] at member
    exact member.elim (errorless.silent message) (other message)
  state := errorless.state

theorem Errorless.connect {s : OrderBookClient} (errorless : s.Errorless) (returned : Bool) :
    (s.connect returned).Errorless := by
  have connected : Errorless { s with state := .connected } := ⟨errorless.silent, nofun⟩
  cases returned with
  | false => exact errorless
  | true => exact connected.notify _ nofun

theorem Errorless.disconnect {s : OrderBookClient} (errorless : s.Errorless) : s.disconnect.Errorless :=
  have disconnected : Errorless { s with state := .disconnected } := ⟨errorless.silent, nofun⟩
  disconnected.notify _ nofun

theorem Errorless.perform {s : OrderBookClient} {event : Event} (errorless : s.Errorless)
    (untroubled : s.Untroubled event) : (s.perform event).Errorless := by
  cases event with
  | client event what =>
    have moved : Errorless { s with client := s.client.perform event } := ⟨errorless.silent, errorless.state⟩
    cases event with
    | connectFails => exact absurd untroubled id
    | connect =>
      show Errorless (if _ then _ else _)
      split
      next => exact moved.connect true
      next => exact moved
    | spawn =>
      show Errorless (if _ then _ else _)
      split
      next => exact moved
      next => exact moved.connect true
    | disconnect =>
      show Errorless (if _ then _ else _)
      split
      next => exact moved
      next => exact moved.disconnect
    | report =>
      have told := moved.notify CallbacksAdapter.onDisconnected nofun
      show Errorless (if _ then _ else _)
      split
      next => exact told
      next => exact told.disconnect
    | announce => exact moved.notify CallbacksAdapter.onConnected nofun
    | readerReport => exact moved.notify CallbacksAdapter.onDisconnected nofun
    | _ => exact moved
  | request request what =>
    obtain ⟨_, state, history⟩ := s.perform_request request what
    refine ⟨?_, by rw [state]; exact errorless.state⟩
    rw [history, write_of_written untroubled]
    exact errorless.silent

theorem Telling.stateTold {s : OrderBookClient} (telling : s.Telling) : s.StateTold where
  agrees idle := by
    have phase := telling.phase
    rw [idle] at phase
    exact phase
  inError pending := by
    obtain ⟨earlier, message, later, whole, _⟩ := pending
    refine absurd ?_ (telling.errorless.silent message)
    rw [whole]
    exact List.mem_append_right _ List.mem_cons_self

theorem Telling.phase_client {s : OrderBookClient} {event : Lifecycle.Event} {what : List UInt8} (telling : s.Telling)
    (untroubled : s.Untroubled (.client event what)) (enabled : s.client.Enabled event) :
    Tells (s.perform (.client event what)).state (s.client.perform event).connected
      (s.client.perform event).caller := by
  have phase := telling.phase
  have joins := telling.joining.phase
  cases event with
  | connect =>
    have idle : s.client.caller = .idle := enabled
    cases on : s.client.connected with
    | true =>
      simp only [perform, Lifecycle.perform, on, if_true, idle]
      exact tells_connected rfl
    | false =>
      simp only [perform, Lifecycle.perform, on]
      exact trivial
  | connectFails => exact absurd untroubled id
  | spawn =>
    rw [show s.client.caller = .spawning from enabled] at joins
    simp only [perform, Lifecycle.perform, joins.2]
    exact tells_connected joins.1
  | disconnect =>
    have idle : s.client.caller = .idle := enabled
    cases on : s.client.connected with
    | true =>
      simp only [perform, Lifecycle.perform, on]
      exact trivial
    | false =>
      simp only [perform, Lifecycle.perform, on, Bool.false_eq_true, if_false, idle]
      exact tells_disconnected rfl
  | destroy =>
    show Tells s.state s.client.connected (if s.client.connected then .clearing else .destructing)
    split <;> exact trivial
  | clearFlag => exact rfl
  | close =>
    rw [show s.client.caller = .closing from enabled] at phase
    exact phase
  | join =>
    rw [show s.client.caller = .joining from enabled.1] at phase
    exact phase
  | report =>
    rw [show s.client.caller = .reporting from enabled] at phase
    cases destroying : s.client.destroying with
    | true =>
      simp only [perform, Lifecycle.perform, destroying]
      exact trivial
    | false =>
      simp only [perform, Lifecycle.perform, destroying]
      exact tells_disconnected phase
  | destruct =>
    rw [show s.client.caller = .destructing from enabled] at joins
    simp only [perform, Lifecycle.perform, show s.client.joinable = false from joins]
    exact trivial
  | clear =>
    show Tells s.state false s.client.caller
    rcases untroubled with caller | caller | caller <;> rw [caller] <;> trivial
  | established | announce => exact trivial
  | check | readOk | readFails | readerReport => exact phase

theorem Telling.step {s after : OrderBookClient} {event : Event} (telling : s.Telling)
    (untroubled : s.Untroubled event) (moved : step s event = some after) : after.Telling := by
  obtain ⟨alive, enabled, rfl⟩ := step_eq_some.mp moved
  have errorless := telling.errorless.perform untroubled
  cases event with
  | client event what =>
    have clears : s.client.ClearsInDisconnect event := by
      cases event with
      | clear => exact untroubled
      | _ => exact trivial
    have same := s.perform_client event what
    have joining := telling.joining.step clears (Lifecycle.step_eq_some.mpr ⟨alive, enabled, rfl⟩)
    have phase := telling.phase_client untroubled enabled
    rw [← same] at joining phase
    exact ⟨joining, phase, errorless⟩
  | request request what =>
    obtain ⟨same, state, _⟩ := s.perform_request request what
    refine ⟨?_, ?_, errorless⟩
    · rw [same]
      exact telling.joining
    · rw [same, state]
      exact telling.phase

/-- A reported error leaves the state as it was. -/
theorem not_stateTold_of_error {s : OrderBookClient} {earlier : List Notice} {what : List UInt8}
    (reported : s.history = earlier ++ [CallbacksAdapter.onError what]) (state : s.state ≠ .error) : ¬s.StateTold :=
  fun told => state (told.inError ⟨earlier, what, [], reported, List.not_mem_nil, List.not_mem_nil⟩)

theorem Telling.not_stateTold {s after : OrderBookClient} {event : Event} (telling : s.Telling)
    (troubled : ¬s.Untroubled event) (moved : OrderBookClient.step s event = some after) : ¬after.StateTold := by
  obtain ⟨_, enabled, rfl⟩ := step_eq_some.mp moved
  cases event with
  | client event what =>
    cases event with
    | connectFails => exact not_stateTold_of_error rfl telling.errorless.state
    | clear =>
      obtain ⟨idle, on, _⟩ := telling.joining.idle_of_clear troubled enabled
      have state : s.state = .connected := (telling.stateTold.agrees idle).mpr on
      exact fun told => absurd ((told.agrees idle).mp state) nofun
    | _ => exact absurd trivial troubled
  | request request what =>
    obtain ⟨on, raised⟩ := Classical.not_imp.mp troubled
    obtain ⟨message, rfl⟩ := Option.ne_none_iff_exists'.mp raised
    obtain ⟨_, state, history⟩ := s.perform_request request (some message)
    rw [write_of_raised on] at history
    exact not_stateTold_of_error history (by rw [state]; exact telling.errorless.state)

/-- The state tells of the connection and of every error exactly in the runs
in which no error is reported and the background thread clears the flag only
while `Disconnect` is ending it. -/
theorem always_stateTold_iff (events : List Event) (last : OrderBookClient) (run : exec step {} events = some last) :
    Always step StateTold {} events ↔ Guarded step Untroubled {} events :=
  always_iff_guarded_of_invariant (fun _ telling => telling.stateTold)
    (fun _ _ _ telling untroubled moved => telling.step untroubled moved)
    (fun _ _ _ telling troubled moved => telling.not_stateTold troubled moved) run telling_initial

/-- The server closes the connection; and a host is not found. -/
theorem failures_not_told :
    ¬(∀ events last, exec step {} events = some last → last.client.caller = .idle →
      (last.state = .connected ↔ last.isConnected = true)) ∧
    ¬∀ events last, exec step {} events = some last → ErrorPending last.history → last.state = .error := by
  constructor
  · intro claim
    let events : List Lifecycle.Event := [.connect, .established, .announce, .spawn, .check, .readFails, .clear]
    obtain ⟨last, run, idle, state, off⟩ : ∃ last, exec step {} (events.map (.client · [])) = some last ∧
        last.client.caller = .idle ∧ last.state = .connected ∧ last.isConnected = false := ⟨_, rfl, rfl, rfl, rfl⟩
    have on := (claim _ last run idle).mp state
    rw [off] at on
    contradiction
  · intro claim
    let message := bytesOf "Host not found"
    let events : List Event := [.client .connect [], .client (.connectFails false) message]
    obtain ⟨last, run, history, state⟩ : ∃ last, exec step {} events = some last ∧
        last.history = [.onError .error message] ∧ last.state = .disconnected := ⟨_, rfl, rfl, rfl⟩
    have error := claim events last run ⟨[], message, [], history, List.not_mem_nil, List.not_mem_nil⟩
    rw [state] at error
    contradiction

/-- A ticker is subscribed to between a `Connect` and a `Disconnect`. -/
theorem subscription_told : Always step StateTold {} [.client .connect [], .client .established [],
    .client .announce [], .client .spawn [], .request (.subscribe (bytesOf "EURUSD")) none, .client .disconnect [],
    .client .clearFlag []] := by
  refine (always_stateTold_iff _ _ rfl).mpr ?_
  refine guarded_cons trivial rfl (guarded_cons trivial rfl (guarded_cons trivial rfl (guarded_cons trivial rfl ?_)))
  refine guarded_cons (fun _ => rfl) rfl (guarded_cons trivial rfl (guarded_cons trivial rfl ?_))
  exact guarded_nil _ _ _

end OrderBookClient

end Stakan.ClientLib
