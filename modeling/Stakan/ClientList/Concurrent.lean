import Stakan.ClientList.Frame
import Stakan.ClientList.Locking

namespace Stakan
open LockedObject

namespace ClientPoint

/-- A call that has not taken effect has not changed the list either. -/
def Stands (op : ClientListOp) (before : ClientList) (point : ClientPoint) (list : ClientList) : Prop :=
  list = before ∧ match point with
    | called op' => op' = op
    | locked op' => op' = op ∧ op.checks = none
    | checking op' id | found op' id | between op' id | relocked op' id => op' = op ∧ op.checks = some id
    | unlocking _ | left _ => False

/-- A call that has taken effect ends as it would have ended then. -/
def Settled (answer : ClientResult) : ClientPoint → Prop
  | unlocking rest | left rest => rest.outcome.blur = answer
  | _ => False

end ClientPoint

theorem ClientRest.outcome_next {rest next : ClientRest} (moved : rest.next = some next) :
    next.outcome = rest.outcome := by
  unfold ClientRest.next at moved
  split at moved
  next => contradiction
  next => obtain rfl := Option.some.inj moved; simp [outcome, Except.map, pure, Except.pure]
  next => obtain rfl := Option.some.inj moved; rfl
  next message session rest sent =>
    obtain rfl := Option.some.inj moved
    simp only [outcome, List.mapM_cons, ClientList.send]
    cases rest.mapM (ClientList.send message) with
    | error failure => rfl
    | ok calls => simp [Except.map, bind, Except.bind, pure, Except.pure]

theorem ClientRest.outcome_afterLock (op : ClientListOp) (list : ClientList) :
    (afterLock op list).outcome = list.reply op := by
  cases op with
  | broadcastToSubscribed message => simp [afterLock, outcome, ClientList.reply, ClientList.broadcastToSubscribed]
  | broadcastToCertain id message =>
    simp only [afterLock, ClientList.reply, ClientList.broadcastToCertain]
    cases list.getSession id with
    | error failure => rfl
    | ok session => cases session <;> rfl
  | _ => rfl

/-- Without its client, a call that checks for it throws and does nothing. -/
theorem ClientList.perform_of_missing {op : ClientListOp} {id : ClientId} {list : ClientList}
    (checks : op.checks = some id) (missing : list.hasClient id = false) :
    list.perform op = some (list, .error .outOfRange, []) := by
  have absent := ClientList.context_refused missing
  have unknown := ClientList.lookup_of_unknown missing
  have update (change : ClientContext → Except Failure ClientContext) :
      list.updateContext id change = (.error (noClient id), list) := by
    rw [updateContext, absent]
    rfl
  cases op with
  | addBid | addAsk | subscribe =>
    obtain rfl := Option.some.inj checks
    simp only [perform, after, reply, callBy, addBid, addAsk, subscribe, update, lines]
    rfl
  | removeBid | removeAsk =>
    obtain rfl := Option.some.inj checks
    simp only [perform, after, reply, callBy, removeBid, removeAsk, update, lines, unknown, Option.map_none,
      missingOrder]
    rfl
  | unsubscribe =>
    obtain rfl := Option.some.inj checks
    simp only [perform, after, reply, callBy, unsubscribe, absent, lines]
    rfl
  | getSession | isSubscribed | getBids | getAsks | broadcastToCertain =>
    obtain rfl := Option.some.inj checks
    simp only [perform, after, reply, callBy, getSession, isSubscribed, getBids, getAsks, broadcastToCertain, absent,
      lines]
    rfl
  | _ => contradiction

open ClientPoint in
/-- A call takes effect where it reads from or writes to the list, or where it misses its client. -/
theorem clientCode_disciplined : Disciplined clientCode ClientList.perform Stands Settled where
  start_free _ := rfl
  start op c := ⟨rfl, rfl⟩
  blind op p c free stands c' := by
    cases p with
    | called | between => exact ⟨rfl, stands.2⟩
    | left => exact stands.2.elim
    | _ => contradiction
  unread p m next free acted m' := by
    cases p with
    | called | between =>
      obtain rfl := Option.some.inj acted
      rfl
    | left rest =>
      obtain ⟨later, moved, rfl⟩ := Option.map_eq_some_iff.mp acted
      simp [clientCode, act, moved]
    | _ => contradiction
  unwritten p m next shared acted := by
    cases p with
    | called | between =>
      obtain rfl := Option.some.inj acted
      rfl
    | left rest =>
      obtain ⟨later, moved, rfl⟩ := Option.map_eq_some_iff.mp acted
      rfl
    | _ => exact absurd rfl shared
  acts op c p m next stands same acted := by
    obtain ⟨rfl, stands⟩ := stands
    cases p with
    | called op' =>
      obtain rfl := stands
      obtain rfl := Option.some.inj acted
      refine .inl ⟨rfl, ⟨rfl, ?_⟩, fun _ => rfl⟩
      cases checks : op'.checks with
      | none => exact ⟨rfl, rfl⟩
      | some id => exact ⟨rfl, rfl⟩
    | locked op' =>
      obtain ⟨rfl, checks⟩ := stands
      obtain rfl := Option.some.inj acted
      refine .inr ⟨_, rfl, ?_⟩
      rw [Settled, ClientRest.outcome_afterLock]
    | checking op' id =>
      obtain ⟨rfl, checks⟩ := stands
      obtain rfl := Option.some.inj acted
      cases known : m.hasClient id with
      | true => exact .inl ⟨rfl, ⟨rfl, rfl, checks⟩, fun _ => rfl⟩
      | false => exact .inr ⟨_, ClientList.perform_of_missing checks known, rfl⟩
    | found op' id | between op' id =>
      obtain ⟨rfl, checks⟩ := stands
      obtain rfl := Option.some.inj acted
      exact .inl ⟨rfl, ⟨rfl, rfl, checks⟩, fun _ => rfl⟩
    | relocked op' id =>
      obtain ⟨rfl, checks⟩ := stands
      simp only [clientCode, act] at acted
      split at acted
      next known =>
        obtain rfl := Option.some.inj acted
        refine .inr ⟨_, rfl, ?_⟩
        rw [Settled, ClientRest.outcome_afterLock]
      next missing =>
        obtain rfl := Option.some.inj acted
        exact .inr ⟨_, ClientList.perform_of_missing checks (by simpa using missing), rfl⟩
    | unlocking | left => exact stands.elim
  settles answer p m next settled acted := by
    cases p with
    | unlocking rest =>
      obtain rfl := Option.some.inj acted
      exact ⟨rfl, rfl, settled⟩
    | left rest =>
      obtain ⟨later, moved, rfl⟩ := Option.map_eq_some_iff.mp acted
      refine ⟨rfl, rfl, ?_⟩
      rw [Settled, ClientRest.outcome_next moved]
      exact settled
    | _ => exact settled.elim
  unfinished op c p m stands := by
    cases p with
    | left => exact stands.2.elim
    | _ => rfl
  answers answer p answer' settled ended := by
    cases p with
    | left rest =>
      cases rest with
      | finished result => exact (Option.some.inj ended).symm.trans settled
      | sending => contradiction
    | _ => contradiction
  end_free p ended := by
    cases p with
    | left => rfl
    | _ => exact absurd rfl ended
  defined op c p m stands same := by
    obtain ⟨rfl, stands⟩ := stands
    cases p with
    | relocked op' id =>
      simp only [clientCode, act]
      split <;> simp
    | unlocking | left => exact stands.elim
    | _ => exact Option.some_ne_none _
  settled_defined answer p m settled under := by
    cases p with
    | unlocking rest => exact Option.some_ne_none _
    | left rest =>
      cases rest with
      | finished result => contradiction
      | sending message sessions sent =>
        cases sessions with
        | nil => exact Option.some_ne_none _
        | cons session rest => cases session <;> exact Option.some_ne_none _
    | _ => exact settled.elim
  no_upgrade p m next acted := by
    cases p with
    | called | between | left => exact .inl rfl
    | locked | found | unlocking =>
      obtain rfl := Option.some.inj acted
      simp [clientCode, holds]
    | checking op id =>
      obtain rfl := Option.some.inj acted
      dsimp only
      split <;> exact .inr (.inr rfl)
    | relocked op id =>
      simp only [clientCode, act] at acted
      split at acted <;> obtain rfl := Option.some.inj acted <;> exact .inr (.inr rfl)

/-- The client list with its mutex, and the calls under way. -/
abbrev ThreadedClientList (ι : Type*) := State ι ClientList ClientPoint

namespace ThreadedClientList

variable {ι : Type*} [DecidableEq ι]

/-- The calls of the client list are linearizable, those that take its mutex
twice among them: whatever any number of threads see of it, they could have
seen of a list that performs every call in one piece, and once no call is
under way it is that list. -/
theorem clientCalls_linearizable (list : ClientList) (labels : List (Label ι ClientListOp)) (last : ThreadedClientList ι)
    (out : List (Output ι ClientListOp ClientResult String))
    (ran : Transducer.run (LockedObject.step clientCode) { memory := list } labels = some (last, out)) :
    ∃ labels' last', Transducer.run (Atomic.step ClientList.perform) { memory := list } labels' = some (last', out) ∧
      ((∀ i, last.calls i = none) → last.memory = last'.memory) ∧
      ((∃ i, last.calls i ≠ none) → ∃ i label, (label = .act i ∨ label = .finish i) ∧
        LockedObject.step (γ := String) clientCode last label ≠ none) := by
  obtain ⟨labels', last', matched, related⟩ := clientCode_disciplined.simulates.run ran (related_start _ _ _ list)
  exact ⟨labels', last', matched, related.memory_of_quiet, related.progress clientCode_disciplined⟩

/-- A client is removed between the two lookups of a call for its session. -/
def removedBetween : List (Label Bool ClientListOp) :=
  [.invoke false (.getSession 5), .act false, .act false, .act false, .invoke true (.removeSession 5), .act true,
    .act true, .act true, .act false, .act false, .act false, .finish false, .finish true]

theorem clientCalls_linearizable_removedBetween : ∃ last out,
    Transducer.run (LockedObject.step clientCode) { memory := ClientList.addSession 5 (some 7) {} } removedBetween =
      some (last, out) ∧
    ∃ labels' last', Transducer.run (Atomic.step ClientList.perform)
        { memory := ClientList.addSession 5 (some 7) {} } labels' = some (last', out) ∧
      ((∀ i, last.calls i = none) → last.memory = last'.memory) ∧
      ((∃ i, last.calls i ≠ none) → ∃ i label, (label = .act i ∨ label = .finish i) ∧
        LockedObject.step (γ := String) clientCode last label ≠ none) :=
  ⟨_, _, rfl, clientCalls_linearizable _ removedBetween _ _ rfl⟩

theorem hasClient_updateContext {id c : ClientId} {list : ClientList} (known : list.hasClient c = true)
    (change : ClientContext → Except Failure ClientContext) : (list.updateContext id change).2.hasClient c = true := by
  unfold ClientList.updateContext
  split
  next ctx _ =>
    by_cases same : c = id
    · rw [ClientList.hasClient, same, AList.lookup_insert]
      rfl
    · rw [ClientList.hasClient, AList.lookup_insert_ne same]
      exact known
  next => exact known

/-- No call but a removal takes a client out. -/
theorem hasClient_after {op : ClientListOp} {list : ClientList} {c : ClientId} (keeps : ∀ id, op ≠ .removeSession id)
    (known : list.hasClient c = true) : (list.after op).hasClient c = true := by
  cases op with
  | removeSession id => exact absurd rfl (keeps id)
  | addSession id session =>
    by_cases same : c = id
    · rw [ClientList.hasClient, same]
      exact congrArg Option.isSome (ClientList.lookup_addSession_self list id session)
    · rw [ClientList.hasClient]
      exact (congrArg Option.isSome (ClientList.lookup_addSession_of_ne list same session)).trans known
  | addBid | addAsk | removeBid | removeAsk | subscribe => exact hasClient_updateContext known _
  | unsubscribe id =>
    simp only [ClientList.after, ClientList.callBy, ClientList.unsubscribe]
    split <;> exact known
  | _ => exact known

/-- A call removes nobody, and a client that it has found is registered. -/
def Finds : ClientPoint → ClientList → Prop
  | .called op, _ | .locked op, _ | .checking op _, _ => ∀ id, op ≠ .removeSession id
  | .found op id, list | .between op id, list | .relocked op id, list =>
    (∀ id, op ≠ .removeSession id) ∧ list.hasClient id = true
  | .unlocking _, _ | .left _, _ => True

theorem Finds.of_kept {p : ClientPoint} {list after : ClientList} (finds : Finds p list)
    (kept : ∀ c, list.hasClient c = true → after.hasClient c = true) : Finds p after := by
  cases p with
  | found | between | relocked => exact ⟨finds.1, kept _ finds.2⟩
  | _ => exact finds

theorem Finds.act {p : ClientPoint} {list : ClientList} {next : ClientList × ClientPoint × List String}
    (finds : Finds p list) (acted : p.act list = some next) :
    Finds next.2.1 next.1 ∧ ∀ c, list.hasClient c = true → next.1.hasClient c = true := by
  cases p with
  | called op =>
    obtain rfl := Option.some.inj acted
    refine ⟨?_, fun _ known => known⟩
    dsimp only
    split <;> exact finds
  | locked op =>
    obtain rfl := Option.some.inj acted
    exact ⟨trivial, fun _ => hasClient_after finds⟩
  | checking op id =>
    obtain rfl := Option.some.inj acted
    refine ⟨?_, fun _ known => known⟩
    dsimp only
    split
    next known => exact ⟨finds, known⟩
    next => trivial
  | found | between =>
    obtain rfl := Option.some.inj acted
    exact ⟨finds, fun _ known => known⟩
  | relocked op id =>
    simp only [ClientPoint.act, if_pos finds.2] at acted
    obtain rfl := Option.some.inj acted
    exact ⟨trivial, fun _ => hasClient_after finds.1⟩
  | unlocking rest =>
    obtain rfl := Option.some.inj acted
    exact ⟨trivial, fun _ known => known⟩
  | left rest =>
    obtain ⟨later, _, rfl⟩ := Option.map_eq_some_iff.mp acted
    exact ⟨trivial, fun _ known => known⟩

/-- Unless somebody removes clients, no call misses at its second lookup the
client that it has found at its first. -/
theorem second_lookup_finds (list : ClientList) (labels : List (Label ι ClientListOp)) (last : ThreadedClientList ι)
    (out : List (Output ι ClientListOp ClientResult String))
    (ran : Transducer.run (LockedObject.step clientCode) { memory := list } labels = some (last, out))
    (stay : ∀ label ∈ labels, ∀ i id, label ≠ .invoke i (.removeSession id)) (i : ι) (op : ClientListOp) (id : ClientId)
    (standing : last.calls i = some (.relocked op id)) : last.memory.hasClient id = true := by
  have preserved : ∀ s (label : Label ι ClientListOp) t (out : List (Output ι ClientListOp ClientResult String)),
      (∀ j p, s.calls j = some p → Finds p s.memory) → (∀ i id, label ≠ .invoke i (.removeSession id)) →
      LockedObject.step clientCode s label = some (t, out) → ∀ j p, t.calls j = some p → Finds p t.memory := by
    intro s label t out finds allowed moved j p standing
    cases label with
    | invoke i op =>
      obtain ⟨_, rfl, _⟩ := step_invoke moved
      dsimp only at standing
      by_cases same : j = i
      · rw [same, Function.update_self] at standing
        obtain rfl := Option.some.inj standing
        exact fun id removal => allowed i id (removal ▸ rfl)
      · rw [Function.update_of_ne same] at standing
        exact finds j p standing
    | act i =>
      obtain ⟨q, next, mutex, atQ, acted, _, rfl, _⟩ := step_act moved
      obtain ⟨here, kept⟩ := (finds i q atQ).act acted
      dsimp only at standing
      by_cases same : j = i
      · rw [same, Function.update_self] at standing
        obtain rfl := Option.some.inj standing
        exact here
      · rw [Function.update_of_ne same] at standing
        exact (finds j p standing).of_kept kept
    | finish i =>
      obtain ⟨_, _, _, _, rfl, _⟩ := step_finish moved
      dsimp only at standing
      by_cases same : j = i
      · rw [same, Function.update_self] at standing
        contradiction
      · rw [Function.update_of_ne same] at standing
        exact finds j p standing
  exact (Transducer.run_invariant preserved ran stay (fun j p standing => by simp at standing) i _ standing).2

/-- One call stands between its two lookups while another one makes its first. -/
def lookupsInterleaved : List (Label Bool ClientListOp) :=
  [.invoke false (.subscribe 5), .act false, .act false, .act false, .invoke true (.getSession 5), .act true, .act true,
    .act true, .act false]

theorem second_lookup_finds_interleaved : ∃ last out,
    Transducer.run (LockedObject.step clientCode) { memory := ClientList.addSession 5 (some 7) {} } lookupsInterleaved =
      some (last, out) ∧
    last.calls false = some (.relocked (.subscribe 5) 5) ∧ last.memory.hasClient 5 = true := by
  have stay : ∀ label ∈ lookupsInterleaved, ∀ i id, label ≠ .invoke i (.removeSession id) := by
    simp [lookupsInterleaved]
  refine ⟨_, _, rfl, rfl, ?_⟩
  exact second_lookup_finds (ClientList.addSession 5 (some 7) {}) lookupsInterleaved _ _ rfl stay false (.subscribe 5) 5
    rfl

/-- With a removal in between, the second lookup throws another exception than the first. -/
example : (Transducer.run (LockedObject.step clientCode) { memory := ClientList.addSession 5 (some 7) {} }
    (removedBetween.take 10)).map (fun last => last.1.calls false) =
      some (some (.unlocking (.finished (.error .outOfRange)))) := rfl

end ThreadedClientList

end Stakan
