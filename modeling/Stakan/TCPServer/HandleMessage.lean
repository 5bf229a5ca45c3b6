import Stakan.ClientList.Sessions
import Stakan.TCPServer.ParseClientId

namespace Stakan.TCPServer
open LabelledRun

/-- What an event handler leaves behind: how it ends, the client list, and
the calls it made on sessions, in their order. -/
structure Handled where
  outcome : Except Failure Unit
  clients : ClientList
  calls : List SessionCall

def errResponse : List UInt8 := bytesOf "ERR expected `HELLO <client_id>`\n"

def reconnectedResponse : List UInt8 := bytesOf "INFO disconnected: reconnected from another socket\n"

def okResponse (clientId : ClientId) : List UInt8 := bytesOf ("OK HELLO " ++ toString clientId ++ "\n")

/-- The farewell to the session the client had before, where that is another one. -/
def supersede (session : SessionAddr) : SessionPtr → List SessionCall
  | some oldSession => if oldSession ≠ session then [.sendMsg oldSession reconnectedResponse, .stop oldSession] else []
  | none => []

def handleMessage (frame : List UInt8) (session : SessionAddr) (clients : ClientList) : Handled :=
  match parseClientId frame with
  | .error failure => ⟨.error failure, clients, []⟩
  | .ok clientId =>
    if clientId = 0 then ⟨.ok (), clients, [.sendMsg session errResponse]⟩
    else match clients.getSession clientId with
      -- an unregistered client: the lookup throws and nothing else is done
      | .error failure => ⟨.error failure, clients, []⟩
      | .ok oldSession =>
        match (clients.addSession clientId (some session)).subscribe clientId with
        | (.error failure, after) => ⟨.error failure, after, []⟩
        | (.ok (), after) =>
          ⟨.ok (), after, supersede session oldSession ++ [.sendMsg session (okResponse clientId)]⟩

/-- The orders a client has on either side, none when it is not registered. -/
def ordersOf (clients : ClientList) (c : ClientId) : OrderSide × OrderSide :=
  ((clients.clients.lookup c).map fun ctx => (ctx.bids, ctx.asks)).getD ({}, {})

/-- A HELLO that was taken: the client has the session and its updates, keeps
its orders, and loses a session that it had before. -/
structure HelloTaken (c : ClientId) (session : SessionAddr) (clients : ClientList) (after : Handled) : Prop where
  bound : after.clients.getSession c = .ok (some session)
  subscribed : after.clients.isSubscribed c = .ok true
  orders : ordersOf after.clients c = ordersOf clients c
  others : ∀ d, d ≠ c → after.clients.clients.lookup d = clients.clients.lookup d
  answered : .sendMsg session (okResponse c) ∈ after.calls
  stopped : ∀ old, .stop old ∈ after.calls ↔ old ≠ session ∧ clients.getSession c = .ok (some old)

/-- What a frame is meant to do, on first contact as on any later one. -/
structure MessageHandled (frame : List UInt8) (session : SessionAddr) (clients : ClientList) : Prop where
  returns : (handleMessage frame session clients).outcome = .ok ()
  refused : parseClientId frame = .ok 0 →
    (handleMessage frame session clients).clients = clients ∧
      (handleMessage frame session clients).calls = [.sendMsg session errResponse]
  taken : ∀ c, parseClientId frame = .ok c → c ≠ 0 →
    HelloTaken c session clients (handleMessage frame session clients)

theorem handleMessage_refused {frame : List UInt8} (parsed : parseClientId frame = .ok 0) (session : SessionAddr)
    (clients : ClientList) :
    handleMessage frame session clients = ⟨.ok (), clients, [.sendMsg session errResponse]⟩ := by
  rw [handleMessage, parsed]
  rfl

/-- First contact: the lookup of the old session throws before the client is added. -/
theorem handleMessage_unregistered {frame : List UInt8} {c : ClientId} {clients : ClientList}
    (parsed : parseClientId frame = .ok c) (valid : c ≠ 0) (unknown : clients.hasClient c = false)
    (session : SessionAddr) :
    handleMessage frame session clients = ⟨.error (ClientList.noClient c), clients, []⟩ := by
  have absent : clients.clients.lookup c = none := by simpa [ClientList.hasClient] using unknown
  have threw : clients.getSession c = .error (ClientList.noClient c) := by
    rw [ClientList.getSession, ClientList.context, absent]
    rfl
  simp only [handleMessage, parsed, if_neg valid, threw]

theorem handleMessage_registered {frame : List UInt8} {c : ClientId} {clients : ClientList} {ctx : ClientContext}
    (parsed : parseClientId frame = .ok c) (valid : c ≠ 0) (registered : clients.clients.lookup c = some ctx)
    (session : SessionAddr) :
    handleMessage frame session clients = ⟨.ok (), ((clients.addSession c (some session)).subscribe c).2,
      supersede session ctx.session ++ [.sendMsg session (okResponse c)]⟩ := by
  have old : clients.getSession c = .ok ctx.session := ClientList.getSession_eq_ok.mpr ⟨ctx, registered, rfl⟩
  have subscribed := (ClientList.subscribe_registered (ClientList.lookup_addSession_self clients c
    (some session))).1
  simp only [handleMessage, parsed, if_neg valid, old]
  split
  next failed => rw [failed] at subscribed; contradiction
  next done => rw [done]

theorem stop_mem_supersede {session old : SessionAddr} {previous : SessionPtr} :
    .stop old ∈ supersede session previous ↔ old ≠ session ∧ previous = some old := by
  cases previous with
  | none => simp [supersede]
  | some former =>
    by_cases same : former = session
    · simp only [supersede, same, ne_eq, not_true, if_false, List.not_mem_nil, false_iff]
      rintro ⟨different, equal⟩
      exact different (Option.some.inj equal).symm
    · have stopped : .stop old ∈ supersede session (some former) ↔ former = old := by
        simp [supersede, same, eq_comm]
      rw [stopped, Option.some.injEq]
      exact ⟨fun equal => ⟨equal ▸ same, equal⟩, fun both => both.2⟩

theorem helloTaken_of_registered {frame : List UInt8} {c : ClientId} {clients : ClientList} {ctx : ClientContext}
    (parsed : parseClientId frame = .ok c) (valid : c ≠ 0) (registered : clients.clients.lookup c = some ctx)
    (session : SessionAddr) : HelloTaken c session clients (handleMessage frame session clients) := by
  rw [handleMessage_registered parsed valid registered]
  have added := ClientList.lookup_addSession_self clients c (some session)
  rw [registered, Option.getD_some] at added
  have after := (ClientList.subscribe_registered added).2
  constructor
  case bound => exact ClientList.getSession_eq_ok.mpr ⟨_, after, rfl⟩
  case subscribed => simp [ClientList.isSubscribed, ClientList.context, after, Except.map]
  case orders => simp [ordersOf, after, registered]
  case others =>
    intro d other
    rw [← ClientList.lookup_addSession_of_ne clients other (some session)]
    exact ClientList.lookup_updateContext_of_ne other _ _
  case answered => simp
  case stopped =>
    intro old
    have previous : clients.getSession c = .ok (some old) ↔ ctx.session = some old := by
      simp [ClientList.getSession, ClientList.context, registered, Except.map]
    rw [previous, List.mem_append, stop_mem_supersede]
    simp

/-- A frame is handled as it should be exactly when the client it names, if
it names one, is registered already. -/
theorem messageHandled_iff (frame : List UInt8) (session : SessionAddr) (clients : ClientList) :
    MessageHandled frame session clients ↔
      ∀ c, parseClientId frame = .ok c → c ≠ 0 → clients.hasClient c = true := by
  constructor
  · intro handled c parsed valid
    by_contra unknown
    have threw := handleMessage_unregistered parsed valid (Bool.eq_false_iff.mpr unknown) session
    have returns := handled.returns
    rw [threw] at returns
    contradiction
  · intro known
    obtain ⟨c, parsed⟩ := parseClientId_ok frame
    by_cases valid : c = 0
    · subst valid
      have refused := handleMessage_refused parsed session clients
      refine ⟨by rw [refused], fun _ => by rw [refused]; exact ⟨rfl, rfl⟩, fun d named positive => ?_⟩
      exact absurd (Except.ok.inj (named.symm.trans parsed)) positive
    · obtain ⟨ctx, registered⟩ := Option.isSome_iff_exists.mp (known c parsed valid)
      refine ⟨?_, fun named => ?_, fun d named _ => ?_⟩
      · rw [handleMessage_registered parsed valid registered]
      · exact absurd (Except.ok.inj (parsed.symm.trans named)) valid
      · obtain rfl := Except.ok.inj (parsed.symm.trans named)
        exact helloTaken_of_registered parsed valid registered session

/-- The first client to say HELLO to a new server is not registered by it. -/
theorem first_hello_not_handled :
    ¬∀ ops clients, exec ClientList.step {} ops = some clients →
      ∀ frame session, MessageHandled frame session clients := by
  intro claim
  have handled := claim [] {} rfl (bytesOf "HELLO 5\n") 7
  have returns := handled.returns
  have parsed : parseClientId (bytesOf "HELLO 5\n") = .ok 5 := by decide
  have threw := handleMessage_unregistered parsed (by decide) (rfl : ClientList.hasClient 5 {} = false) 7
  rw [threw] at returns
  contradiction

end Stakan.TCPServer
