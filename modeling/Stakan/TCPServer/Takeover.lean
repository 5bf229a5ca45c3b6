import Stakan.TCPServer.HandleMessage

namespace Stakan.TCPServer
open LabelledRun

/-- The client goes only if the session is still the one it has. -/
def handleDisconnect (session : SessionAddr) (clients : ClientList) : Handled :=
  match clients.findClientIdBySession (some session) with
  | none => ⟨.ok (), clients, []⟩
  | some clientId =>
    match clients.getSession clientId with
    | .error failure => ⟨.error failure, clients, []⟩
    | .ok current => ⟨.ok (), if current = some session then clients.removeSession clientId else clients, []⟩

/-- What the sessions report to the server, in the order in which it hears of it. -/
inductive Report
  | message (frame : List UInt8) (session : SessionAddr)
  | disconnect (session : SessionAddr)

def handle (clients : ClientList) : Report → Handled
  | .message frame session => handleMessage frame session clients
  | .disconnect session => handleDisconnect session clients

/-- The client list after a report, whether its handler returns or throws. -/
def step (clients : ClientList) (report : Report) : Option ClientList := some (handle clients report).clients

/-- A frame that announces the client. -/
def Hello (c : ClientId) (frame : List UInt8) : Prop := parseClientId frame = .ok c ∧ c ≠ 0

/-- The client is registered and subscribed, has this session, and these orders. -/
structure HeldBy (c : ClientId) (session : SessionAddr) (orders : OrderSide × OrderSide) (clients : ClientList) :
    Prop where
  bound : clients.getSession c = .ok (some session)
  subscribed : clients.isSubscribed c = .ok true
  orders : ordersOf clients c = orders

theorem HeldBy.of_lookup {c : ClientId} {session : SessionAddr} {orders : OrderSide × OrderSide}
    {clients after : ClientList} (held : HeldBy c session orders clients)
    (same : after.clients.lookup c = clients.clients.lookup c) : HeldBy c session orders after := by
  obtain ⟨bound, subscribed, kept⟩ := held
  refine ⟨(ClientList.getSession_congr same).trans bound, ?_, ?_⟩
  · rwa [ClientList.isSubscribed, ClientList.context, same]
  · rwa [ordersOf, same]

/-- What a frame does to the list: nothing, or what the HELLO of a registered client does. -/
theorem handleMessage_clients (frame : List UInt8) (session : SessionAddr) (clients : ClientList) :
    (handleMessage frame session clients).clients = clients ∨
      ∃ c ctx, Hello c frame ∧ clients.clients.lookup c = some ctx ∧
        (handleMessage frame session clients).clients = ((clients.addSession c (some session)).subscribe c).2 := by
  obtain ⟨c, parsed⟩ := parseClientId_ok frame
  by_cases valid : c = 0
  · subst valid
    exact Or.inl (by rw [handleMessage_refused parsed])
  · cases registered : clients.clients.lookup c with
    | none =>
      have unknown : clients.hasClient c = false := by rw [ClientList.hasClient, registered]; rfl
      exact Or.inl (by rw [handleMessage_unregistered parsed valid unknown])
    | some ctx =>
      refine Or.inr ⟨c, ctx, ⟨parsed, valid⟩, registered, ?_⟩
      rw [handleMessage_registered parsed valid registered]

/-- While every entry of the reverse map is owned, the lookup of its client
succeeds and the client is taken out. -/
theorem handleDisconnect_cases {clients : ClientList} (entries : clients.EntriesOwned) (session : SessionAddr) :
    handleDisconnect session clients = ⟨.ok (), clients, []⟩ ∨
      ∃ c, clients.getSession c = .ok (some session) ∧
        handleDisconnect session clients = ⟨.ok (), clients.removeSession c, []⟩ := by
  unfold handleDisconnect
  split
  next => exact Or.inl rfl
  next c entry =>
    have bound := entries.owned session c entry
    refine Or.inr ⟨c, bound, ?_⟩
    simp only [bound, if_true]

theorem handle_entriesOwned {clients : ClientList} (entries : clients.EntriesOwned) (report : Report) :
    (handle clients report).clients.EntriesOwned := by
  cases report with
  | message frame session =>
    rcases handleMessage_clients frame session clients with same | ⟨c, _, _, _, after⟩
    · rwa [handle, same]
    · rw [handle, after]
      have added := entries.addSession c (some session)
      exact added.of_sameSessions (ClientList.updateContext_sameSessions c fun _ _ changed => by
        cases changed; rfl)
  | disconnect session =>
    rcases handleDisconnect_cases entries session with same | ⟨c, _, removed⟩
    · rwa [handle, same]
    · rw [handle, removed]
      exact entries.removeSession c

/-- The HELLO of another client and the disconnect of another session pass a client by. -/
theorem handle_heldBy {c : ClientId} {session : SessionAddr} {orders : OrderSide × OrderSide} {clients : ClientList}
    (entries : clients.EntriesOwned) (held : HeldBy c session orders clients) {report : Report}
    (noHello : ∀ frame other, report = .message frame other → ¬Hello c frame)
    (notEnded : report ≠ .disconnect session) : HeldBy c session orders (handle clients report).clients := by
  cases report with
  | message frame other =>
    rcases handleMessage_clients frame other clients with same | ⟨d, ctx, ⟨parsed, valid⟩, registered, _⟩
    · rwa [handle, same]
    · have different : c ≠ d := fun same => noHello frame other rfl ⟨same ▸ parsed, same ▸ valid⟩
      have taken := helloTaken_of_registered parsed valid registered other
      exact held.of_lookup (taken.others c different)
  | disconnect other =>
    rcases handleDisconnect_cases entries other with same | ⟨d, bound, removed⟩
    · rwa [handle, same]
    · have different : c ≠ d := by
        rintro rfl
        have mine := Except.ok.inj (held.bound.symm.trans bound)
        exact notEnded (by rw [Option.some.inj mine])
      rw [handle, removed]
      exact held.of_lookup (AList.lookup_erase_ne different)

/-- Until it says HELLO again or its session ends, nothing that is reported changes what a client has. -/
theorem exec_heldBy {c : ClientId} {session : SessionAddr} {orders : OrderSide × OrderSide}
    {clients last : ClientList} {reports : List Report} (run : exec step clients reports = some last)
    (entries : clients.EntriesOwned) (held : HeldBy c session orders clients)
    (noHello : ∀ frame other, .message frame other ∈ reports → ¬Hello c frame)
    (notEnded : .disconnect session ∉ reports) : HeldBy c session orders last := by
  have passes : ∀ report ∈ reports,
      (∀ frame other, report = .message frame other → ¬Hello c frame) ∧ report ≠ .disconnect session := by
    refine fun report member => ⟨?_, ?_⟩
    · rintro frame other rfl
      exact noHello frame other member
    · rintro rfl
      exact notEnded member
  have preserved : ∀ clients report t, clients.EntriesOwned ∧ HeldBy c session orders clients →
      ((∀ frame other, report = .message frame other → ¬Hello c frame) ∧ report ≠ .disconnect session) →
        step clients report = some t → t.EntriesOwned ∧ HeldBy c session orders t := by
    intro clients report t ⟨entries, held⟩ ⟨noHello, notEnded⟩ moved
    obtain rfl := Option.some.inj moved
    exact ⟨handle_entriesOwned entries report, handle_heldBy entries held noHello notEnded⟩
  exact (exec_invariant_of_forall_mem preserved run passes ⟨entries, held⟩).2

/-- Nothing that superseded sessions report late harms a client. -/
structure TakeoverSafe (start : ClientList) (reports : List Report) (last : ClientList) : Prop where
  returns : ∀ session, (handleDisconnect session last).outcome = .ok ()
  entries : ∀ p c, last.findClientIdBySession p = some c → p.isSome ∧ last.getSession c = .ok p
  refused : ∀ c frame session, Hello c frame → last.hasClient c = false →
    handleMessage frame session last = ⟨.error (ClientList.noClient c), last, []⟩
  kept : ∀ before frame session after c former, reports = before ++ .message frame session :: after →
    exec step start before = some former → Hello c frame → former.hasClient c = true →
    (∀ later other, .message later other ∈ after → ¬Hello c later) → .disconnect session ∉ after →
      HeldBy c session (ordersOf former c) last

/-- Whatever the order in which frames and disconnects are handled, a client
keeps the session of its latest HELLO until that session itself is gone. -/
theorem run_takeoverSafe (evaluation : OperandOrder) (ops : List ClientListOp) (start last : ClientList)
    (reports : List Report) (reached : exec (ClientList.stepBy evaluation) {} ops = some start)
    (run : exec step start reports = some last) :
    TakeoverSafe start reports last := by
  have started : start.EntriesOwned := exec_invariant (fun _ _ _ entries moved =>
    ClientList.EntriesOwned.step entries moved) reached ClientList.entriesOwned_empty
  have owned {reports : List Report} {last : ClientList} (run : exec step start reports = some last) :
      last.EntriesOwned :=
    exec_invariant (fun _ report _ entries moved =>
      Option.some.inj moved ▸ handle_entriesOwned entries report) run started
  constructor
  case returns =>
    intro session
    rcases handleDisconnect_cases (owned run) session with same | ⟨c, _, removed⟩
    · rw [same]
    · rw [removed]
  case entries =>
    intro p c entry
    cases p with
    | none => rw [(owned run).real] at entry; contradiction
    | some s => exact ⟨rfl, (owned run).owned s c entry⟩
  case refused =>
    intro c frame session ⟨parsed, valid⟩ unknown
    exact handleMessage_unregistered parsed valid unknown session
  case kept =>
    intro before frame session after c former split first ⟨parsed, valid⟩ known noHello notEnded
    rw [split, exec_trans first] at run
    obtain ⟨taken, moved, rest⟩ := exec_cons_split run
    obtain ⟨ctx, registered⟩ := Option.isSome_iff_exists.mp known
    have hello := helloTaken_of_registered parsed valid registered session
    obtain rfl := Option.some.inj moved
    have entries := handle_entriesOwned (owned first) (.message frame session)
    exact exec_heldBy rest entries ⟨hello.bound, hello.subscribed, hello.orders⟩ noHello notEnded

/-- A client moves to a second session, and only then the first one is heard to have ended. -/
theorem reconnected_client_kept : ∃ start last : ClientList,
    TakeoverSafe start [.message (bytesOf "HELLO 5\n") 1, .message (bytesOf "HELLO 5\n") 2, .disconnect 1] last ∧
      last.getSession 5 = .ok (some 2) := by
  let start : ClientList := ({} : ClientList).addSession 5 none
  obtain ⟨last, run, bound⟩ : ∃ last, exec step start
      [.message (bytesOf "HELLO 5\n") 1, .message (bytesOf "HELLO 5\n") 2, .disconnect 1] = some last ∧
        last.getSession 5 = .ok (some 2) := ⟨_, rfl, rfl⟩
  exact ⟨start, last, run_takeoverSafe .rightFirst [.addSession 5 none] start last _ rfl run, bound⟩

end Stakan.TCPServer
