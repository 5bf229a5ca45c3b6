import Stakan.ClientList.Contexts

namespace Stakan
open LabelledRun

/-- The client that a call names. -/
def ClientListOp.client : ClientListOp → Option ClientId
  | .addSession id _ | .removeSession id | .getSession id | .hasClient id | .addBid id _ | .addAsk id _
  | .removeBid id _ | .removeAsk id _ | .getBids id | .getAsks id | .isSubscribed id | .subscribe id
  | .unsubscribe id | .broadcastToCertain id _ => some id
  | .size | .getAllSessions | .getSubscribedClients | .getSubscribedSessions | .broadcastToSubscribed _
  | .findClientIdBySession _ => none

/-- The calls that return data. -/
def ClientListOp.Reads : ClientListOp → Prop
  | .getSession _ | .size | .getAllSessions | .hasClient _ | .getBids _ | .getAsks _ | .isSubscribed _
  | .getSubscribedClients | .getSubscribedSessions | .findClientIdBySession _ => True
  | _ => False

namespace ClientList

/-- What the calls leave alone, whether they return or throw. -/
structure Framed (evaluation : OperandOrder) (list : ClientList) : Prop where
  others : ∀ op c after, op.client = some c → list.stepBy evaluation op = some after →
    ∀ other, other ≠ c → after.clients.lookup other = list.clients.lookup other
  refused : ∀ op c failure, op.client = some c → list.hasClient c = false →
    (list.callBy evaluation op).1 = .error failure → failure = noClient c ∧ (list.callBy evaluation op).2 = list
  reconnected : ∀ c ctx session, list.clients.lookup c = some ctx →
    (list.addSession c session).clients.lookup c = some { ctx with session }
  fresh : ∀ c later ops, exec (stepBy evaluation) (list.removeSession c) ops = some later →
    (∀ session, .addSession c session ∉ ops) → later.hasClient c = false ∧
      ∀ session, (later.addSession c session).clients.lookup c = some { session }
  reads : ∀ op, op.Reads → (list.callBy evaluation op).2 = list

variable {evaluation : OperandOrder} {list : ClientList}

/-- A call does nothing to the context of a client that it does not name. -/
theorem after_of_ne {op : ClientListOp} {c other : ClientId} (names : op.client = some c) (different : other ≠ c)
    (ctx : Option ClientContext) : ClientContext.after evaluation other ctx op = ctx := by
  cases op <;> simp only [ClientListOp.client, Option.some.injEq, reduceCtorEq] at names <;>
    simp [ClientContext.after, names, Ne.symm different]

theorem lookup_of_unknown {c : ClientId} (unknown : list.hasClient c = false) : list.clients.lookup c = none := by
  simpa [hasClient] using unknown

theorem context_refused {c : ClientId} (unknown : list.hasClient c = false) :
    list.context c = .error (noClient c) := by
  rw [context, lookup_of_unknown unknown]

/-- Without its client a call throws, or is one that needs none and returns. -/
theorem callBy_refused (evaluation : OperandOrder) {op : ClientListOp} {c : ClientId} (names : op.client = some c)
    (unknown : list.hasClient c = false) :
    list.callBy evaluation op = (.error (noClient c), list) ∨ (list.callBy evaluation op).1 = .ok () := by
  have absent := context_refused unknown
  have update (change : ClientContext → Except Failure ClientContext) :
      list.updateContext c change = (.error (noClient c), list) := by
    rw [updateContext, absent]
    rfl
  cases op with
  | addSession id _ | removeSession id | hasClient id => exact Or.inr rfl
  | addBid id _ | addAsk id _ | removeBid id _ | removeAsk id _ | subscribe id =>
    obtain rfl := Option.some.inj names
    exact Or.inl (update _)
  | unsubscribe id =>
    obtain rfl := Option.some.inj names
    exact Or.inl (by rw [callBy, ClientList.unsubscribe, absent])
  | getSession id | isSubscribed id | getBids id | getAsks id | broadcastToCertain id _ =>
    obtain rfl := Option.some.inj names
    refine Or.inl ?_
    simp [callBy, ClientList.getSession, ClientList.isSubscribed, ClientList.getBids, ClientList.getAsks,
      ClientList.broadcastToCertain, absent, Except.map, bind, Except.bind]
  | _ => contradiction

/-- Only a call that adds a session registers a client. -/
theorem hasClient_step {op : ClientListOp} {after : ClientList} {c : ClientId}
    (moved : list.stepBy evaluation op = some after) (unknown : list.hasClient c = false)
    (other : ∀ session, op ≠ .addSession c session) : after.hasClient c = false := by
  rw [hasClient, lookup_step moved c, lookup_of_unknown unknown]
  cases op with
  | addSession id session =>
    have different : id ≠ c := by
      rintro rfl
      exact other session rfl
    simp [ClientContext.after, different]
  | _ => simp [ClientContext.after]

theorem fresh_after_removal {later : ClientList} {ops : List ClientListOp} {c : ClientId}
    (run : exec (stepBy evaluation) (list.removeSession c) ops = some later)
    (none_added : ∀ session, .addSession c session ∉ ops) : later.hasClient c = false ∧
      ∀ session, (later.addSession c session).clients.lookup c = some { session } := by
  have removed : (list.removeSession c).hasClient c = false := by
    rw [hasClient, removeSession, AList.lookup_erase]
    rfl
  have preserved : ∀ s op t, ClientList.hasClient c s = false → (∀ session, op ≠ .addSession c session) →
      s.stepBy evaluation op = some t → t.hasClient c = false :=
    fun _ _ _ unknown other moved => hasClient_step moved unknown other
  have allowed : ∀ op ∈ ops, ∀ session, op ≠ .addSession c session := by
    rintro _ member session rfl
    exact none_added session member
  have unknown := exec_invariant_of_forall_mem preserved run allowed removed
  refine ⟨unknown, fun session => ?_⟩
  rw [lookup_addSession_self, lookup_of_unknown unknown]
  rfl

/-- In every state the calls leave alone what they do not name. -/
theorem framed (evaluation : OperandOrder) (list : ClientList) : list.Framed evaluation where
  others op c after names moved other different := by
    rw [lookup_step moved other, after_of_ne names different]
  refused op c failure names unknown threw := by
    rcases callBy_refused evaluation names unknown with refused | returned
    · rw [refused] at threw ⊢
      exact ⟨(Except.error.inj threw).symm, rfl⟩
    · rw [returned] at threw
      contradiction
  reconnected c ctx session registered := by
    rw [lookup_addSession_self, registered]
    rfl
  fresh c later ops run none_added := fresh_after_removal run none_added
  reads op reading := by
    cases op <;> first | rfl | exact reading.elim

end ClientList

end Stakan
