import Stakan.ClientList.Basic

namespace Stakan.ClientList
open LabelledRun

variable {evaluation : OperandOrder} {list : ClientList}

theorem getSession_eq_ok {c : ClientId} {p : SessionPtr} :
    list.getSession c = .ok p ↔ ∃ ctx, list.clients.lookup c = some ctx ∧ ctx.session = p := by
  unfold getSession context
  cases list.clients.lookup c <;> simp [Except.map]

@[simp] theorem lookup_addSession_self (list : ClientList) (id : ClientId) (p : SessionPtr) :
    (list.addSession id p).clients.lookup id = some { (list.clients.lookup id).getD {} with session := p } :=
  AList.lookup_insert _

theorem lookup_addSession_of_ne {id c : ClientId} (list : ClientList) (other : c ≠ id) (p : SessionPtr) :
    (list.addSession id p).clients.lookup c = list.clients.lookup c := AList.lookup_insert_ne other

theorem getSession_addSession_self (id : ClientId) (p : SessionPtr) :
    (list.addSession id p).getSession id = .ok p := getSession_eq_ok.mpr ⟨_, lookup_addSession_self list id p, rfl⟩

theorem getSession_congr {list' : ClientList} {c : ClientId}
    (same : list'.clients.lookup c = list.clients.lookup c) : list'.getSession c = list.getSession c := by
  simp only [getSession, context, same]

theorem getSession_addSession_of_ne {id c : ClientId} (other : c ≠ id) (p : SessionPtr) :
    (list.addSession id p).getSession c = list.getSession c := getSession_congr (lookup_addSession_of_ne list other p)

theorem getSession_removeSession_of_ne {id c : ClientId} (other : c ≠ id) :
    (list.removeSession id).getSession c = list.getSession c := getSession_congr (AList.lookup_erase_ne other)

theorem getSession_removeSession_self (id : ClientId) (p : SessionPtr) :
    (list.removeSession id).getSession id ≠ .ok p := by
  intro bound
  obtain ⟨ctx, atId, _⟩ := getSession_eq_ok.mp bound
  rw [removeSession, AList.lookup_erase] at atId
  contradiction

/-- Only the client's own former session is forgotten. -/
theorem lookup_forgetSession (id : ClientId) (s : SessionAddr) :
    (list.forgetSession id).lookup (some s) =
      if list.getSession id = .ok (some s) then none else list.sessionToClient.lookup (some s) := by
  unfold forgetSession getSession context
  cases list.clients.lookup id with
  | none => simp [Except.map]
  | some ctx =>
    simp only [Except.map, Except.ok.injEq]
    by_cases bound : ctx.session = some s
    · simp [bound, AList.lookup_erase]
    · cases other : ctx.session with
      | none => simp
      | some s' =>
        rw [other] at bound
        simp only [Option.isSome_some, if_true, if_neg bound]
        exact AList.lookup_erase_ne (Ne.symm bound)

/-- The calls that leave every binding of a session as it was. -/
def SameSessions (list after : ClientList) : Prop :=
  after.sessionToClient = list.sessionToClient ∧ ∀ c, after.getSession c = list.getSession c

theorem sameSessions_refl (list : ClientList) : SameSessions list list := ⟨rfl, fun _ => rfl⟩

theorem updateContext_sameSessions {change : ClientContext → Except Failure ClientContext} (id : ClientId)
    (keeps : ∀ ctx ctx', change ctx = .ok ctx' → ctx'.session = ctx.session) :
    SameSessions list (list.updateContext id change).2 := by
  unfold updateContext context
  cases found : list.clients.lookup id with
  | none => exact sameSessions_refl list
  | some ctx =>
    cases changed : change ctx with
    | error failure => simp [changed, bind, Except.bind, sameSessions_refl]
    | ok ctx' =>
      simp only [bind, Except.bind, changed]
      refine ⟨rfl, fun c => ?_⟩
      by_cases own : c = id
      · subst own
        simp [getSession, context, found, Except.map, keeps ctx ctx' changed]
      · exact getSession_congr (AList.lookup_insert_ne own)

theorem lookup_updateContext_of_ne {id c : ClientId} (other : c ≠ id) (clients : ClientList)
    (change : ClientContext → Except Failure ClientContext) :
    (clients.updateContext id change).2.clients.lookup c = clients.clients.lookup c := by
  unfold updateContext
  split
  next => exact AList.lookup_insert_ne other
  next => rfl

/-- A registered client's subscription goes through, and changes nothing else of it. -/
theorem subscribe_registered {clients : ClientList} {id : ClientId} {ctx : ClientContext}
    (registered : clients.clients.lookup id = some ctx) :
    (clients.subscribe id).1 = .ok () ∧
      (clients.subscribe id).2.clients.lookup id = some { ctx with subscribed := true } := by
  have found : clients.context id = .ok ctx := by rw [context, registered]
  have result : clients.subscribe id =
      (.ok (), { clients with clients := clients.clients.insert id { ctx with subscribed := true } }) := by
    rw [subscribe, updateContext, found]
    rfl
  rw [result]
  exact ⟨rfl, AList.lookup_insert _⟩

theorem step_eq_some {op : ClientListOp} {after : ClientList} (moved : list.stepBy evaluation op = some after) :
    after = (list.callBy evaluation op).2 := by
  unfold stepBy at moved
  split at moved
  next => contradiction
  next result _ called => rw [called]; exact (Option.some.inj moved).symm

/-- What a call can do to the bindings: bind, unbind, or leave them alone. -/
theorem step_sessions {op : ClientListOp} {after : ClientList} (moved : list.stepBy evaluation op = some after) :
    (∃ id p, op = .addSession id p ∧ after = list.addSession id p) ∨
      (∃ id, op = .removeSession id ∧ after = list.removeSession id) ∨
      ((∀ id p, op ≠ .addSession id p) ∧ SameSessions list after) := by
  have result := step_eq_some moved
  cases op with
  | addSession id p => exact Or.inl ⟨id, p, rfl, result⟩
  | removeSession id => exact Or.inr (Or.inl ⟨id, rfl, result⟩)
  | addBid id bid | addAsk id bid | removeBid id bid | removeAsk id bid =>
    refine Or.inr (Or.inr ⟨by simp, ?_⟩)
    rw [result]
    refine updateContext_sameSessions id fun ctx ctx' changed => ?_
    simp only [bind, Except.bind, pure, Except.pure] at changed
    split at changed <;> cases changed
    rfl
  | subscribe id =>
    refine Or.inr (Or.inr ⟨by simp, ?_⟩)
    rw [result]
    exact updateContext_sameSessions id fun ctx ctx' changed => by cases changed; rfl
  | unsubscribe id =>
    refine Or.inr (Or.inr ⟨by simp, ?_⟩)
    rw [result]
    simp only [callBy, unsubscribe]
    split <;> exact sameSessions_refl list
  | _ => exact Or.inr (Or.inr ⟨by simp, by rw [result]; exact sameSessions_refl list⟩)

/-- The session that is added leads to its client, and the client's former session nowhere. -/
theorem find_addSession (id : ClientId) (p : SessionPtr) (s : SessionAddr) :
    (list.addSession id p).findClientIdBySession (some s) =
      if p = some s then some id else if list.getSession id = .ok (some s) then none
        else list.findClientIdBySession (some s) := by
  have forgotten := list.lookup_forgetSession id s
  unfold ClientList.addSession findClientIdBySession
  cases p with
  | none => simpa using forgotten
  | some s' =>
    by_cases same : s' = s
    · subst same
      simp [AList.lookup_insert]
    · have other : (some s : SessionPtr) ≠ some s' := fun equal => same (Option.some.inj equal).symm
      simp only [Option.isSome_some, if_true, Option.some.injEq, same, if_false, AList.lookup_insert_ne other]
      exact forgotten

theorem find_removeSession (id : ClientId) (s : SessionAddr) :
    (list.removeSession id).findClientIdBySession (some s) =
      if list.getSession id = .ok (some s) then none else list.findClientIdBySession (some s) :=
  list.lookup_forgetSession id s

/-- Every entry of the reverse map is a real session, and its client is
registered with exactly that session. The converse may fail: a session that
several clients have leads to the last of them only. -/
structure EntriesOwned (list : ClientList) : Prop where
  real : list.findClientIdBySession none = none
  owned : ∀ s c, list.findClientIdBySession (some s) = some c → list.getSession c = .ok (some s)

theorem entriesOwned_empty : EntriesOwned {} where
  real := rfl
  owned s c entry := by simp [findClientIdBySession] at entry

/-- A null session is never a key that comes or goes. -/
theorem lookup_forgetSession_none (id : ClientId) :
    (list.forgetSession id).lookup none = list.findClientIdBySession none := by
  unfold forgetSession findClientIdBySession
  split
  next ctx _ =>
    cases ctx.session with
    | none => rfl
    | some s => exact AList.lookup_erase_ne (Option.some_ne_none s).symm
  next => rfl

theorem EntriesOwned.addSession (entries : list.EntriesOwned) (id : ClientId) (p : SessionPtr) :
    (list.addSession id p).EntriesOwned where
  real := by
    have forgotten : (list.forgetSession id).lookup none = none := (lookup_forgetSession_none id).trans entries.real
    cases p with
    | none => exact forgotten
    | some s => exact (AList.lookup_insert_ne (Option.some_ne_none s).symm).trans forgotten
  owned s c entry := by
    rw [find_addSession] at entry
    split at entry
    next same => rw [← Option.some.inj entry, getSession_addSession_self, same]
    next different =>
      split at entry
      next => contradiction
      next free =>
        have bound := entries.owned s c entry
        have other : c ≠ id := fun own => free (own ▸ bound)
        rwa [getSession_addSession_of_ne other]

theorem EntriesOwned.removeSession (entries : list.EntriesOwned) (id : ClientId) :
    (list.removeSession id).EntriesOwned where
  real := (lookup_forgetSession_none id).trans entries.real
  owned s c entry := by
    rw [find_removeSession] at entry
    split at entry
    next => contradiction
    next free =>
      have bound := entries.owned s c entry
      have other : c ≠ id := fun own => free (own ▸ bound)
      rwa [getSession_removeSession_of_ne other]

theorem EntriesOwned.of_sameSessions {after : ClientList} (entries : list.EntriesOwned)
    (same : SameSessions list after) : after.EntriesOwned where
  real := by rw [findClientIdBySession, same.1]; exact entries.real
  owned s c entry := by
    rw [findClientIdBySession, same.1] at entry
    rw [same.2]
    exact entries.owned s c entry

theorem EntriesOwned.step {after : ClientList} {op : ClientListOp} (entries : list.EntriesOwned)
    (moved : list.stepBy evaluation op = some after) : after.EntriesOwned := by
  rcases step_sessions moved with ⟨id, p, _, rfl⟩ | ⟨id, _, rfl⟩ | ⟨_, same⟩
  · exact entries.addSession id p
  · exact entries.removeSession id
  · exact entries.of_sameSessions same

/-- The two maps are inverse to each other on real sessions. -/
def MutuallyInverse (list : ClientList) : Prop :=
  ∀ s c, list.findClientIdBySession (some s) = some c ↔ list.getSession c = .ok (some s)

/-- A session that is added is not the session of another client. -/
def AddsUnboundSession (list : ClientList) : ClientListOp → Prop
  | .addSession id (some s) => ∀ c, c ≠ id → list.getSession c ≠ .ok (some s)
  | _ => True

theorem MutuallyInverse.addSession (inverse : list.MutuallyInverse) {id : ClientId} {p : SessionPtr}
    (unbound : list.AddsUnboundSession (.addSession id p)) : (list.addSession id p).MutuallyInverse := by
  intro s c
  rw [find_addSession]
  by_cases own : c = id
  · subst own
    rw [getSession_addSession_self]
    by_cases same : p = some s
    · simp [same]
    · simp only [same, if_false, Except.ok.injEq, iff_false]
      split
      next => simp
      next free => rw [inverse s c]; exact free
  · rw [getSession_addSession_of_ne own, ← inverse s c]
    by_cases same : p = some s
    · subst same
      have never : list.findClientIdBySession (some s) ≠ some c := fun bound => unbound c own ((inverse s c).mp bound)
      simp [never, Ne.symm own]
    · simp only [same, if_false]
      split
      next bound =>
        rw [(inverse s id).mpr bound]
        simp [Ne.symm own]
      next => rfl

theorem MutuallyInverse.removeSession (inverse : list.MutuallyInverse) (id : ClientId) :
    (list.removeSession id).MutuallyInverse := by
  intro s c
  rw [find_removeSession]
  by_cases own : c = id
  · subst own
    simp only [getSession_removeSession_self, iff_false]
    split
    next => simp
    next free => rw [inverse s c]; exact free
  · rw [getSession_removeSession_of_ne own, ← inverse s c]
    split
    next bound =>
      rw [(inverse s id).mpr bound]
      simp [Ne.symm own]
    next => rfl

theorem MutuallyInverse.step {after : ClientList} {op : ClientListOp} (inverse : list.MutuallyInverse)
    (unbound : list.AddsUnboundSession op) (moved : list.stepBy evaluation op = some after) :
    after.MutuallyInverse := by
  rcases step_sessions moved with ⟨id, p, rfl, rfl⟩ | ⟨id, rfl, rfl⟩ | ⟨_, map, sessions⟩
  · exact inverse.addSession unbound
  · exact inverse.removeSession id
  · intro s c
    rw [findClientIdBySession, map, sessions]
    exact inverse s c

/-- A session given to a second client is traced back to that one only. -/
theorem not_mutuallyInverse_of_bound {after : ClientList} {op : ClientListOp}
    (bound : ¬list.AddsUnboundSession op) (moved : list.stepBy evaluation op = some after) :
    ¬after.MutuallyInverse := by
  intro inverse
  obtain ⟨id, p, rfl, rfl⟩ | ⟨id, rfl, rfl⟩ | ⟨other, _⟩ := step_sessions moved
  · cases p with
    | none => exact bound trivial
    | some s =>
      simp only [AddsUnboundSession, not_forall, not_not] at bound
      obtain ⟨c, other, atC⟩ := bound
      have mine := (inverse s id).mpr (getSession_addSession_self id (some s))
      have theirs := (inverse s c).mpr (by rw [getSession_addSession_of_ne other, atC])
      exact other (Option.some.inj (theirs.symm.trans mine))
  · exact bound trivial
  · cases op <;> first | exact bound trivial | exact other _ _ rfl

/-- Along any run of calls the two maps stay inverse to each other exactly
as long as every session that is added belongs to no other client. -/
theorem always_mutuallyInverse_iff (evaluation : OperandOrder) (ops : List ClientListOp) (last : ClientList)
    (run : exec (stepBy evaluation) {} ops = some last) :
    Always (stepBy evaluation) MutuallyInverse {} ops ↔ Guarded (stepBy evaluation) AddsUnboundSession {} ops := by
  refine always_iff_guarded ?_ ?_ run ?_
  · exact fun _ _ _ inverse unbound moved => inverse.step unbound moved
  · exact fun _ _ _ _ bound moved => not_mutuallyInverse_of_bound bound moved
  · intro s c
    simp [findClientIdBySession, getSession, context, Except.map]

/-- One session for two clients: a run that breaks the inverse maps. -/
theorem shared_session_not_inverse : ¬∀ ops last, exec step {} ops = some last → last.MutuallyInverse := by
  intro claim
  have inverse := claim [.addSession 1 (some 7), .addSession 2 (some 7)] _ rfl 7 1
  exact absurd (inverse.mpr rfl) (by decide)

/-- A client that reconnects from another socket keeps the maps inverse. -/
theorem reconnect_mutuallyInverse :
    Always step MutuallyInverse {} [.addSession 1 (some 7), .addSession 1 (some 8)] := by
  refine (always_mutuallyInverse_iff _ _ _ rfl).mpr ?_
  refine guarded_cons ?_ rfl (guarded_cons ?_ rfl (guarded_nil _ _ _))
  · intro c _ bound
    simp [getSession, context, Except.map] at bound
  · intro c other bound
    rw [getSession_addSession_of_ne other] at bound
    simp [getSession, context, Except.map] at bound

end Stakan.ClientList
