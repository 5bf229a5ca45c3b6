import Stakan.ClientList.Subscriptions

namespace Stakan.ClientList
open LabelledRun

/-- A broadcast sends its message once to every subscribed client with a
session, to nobody else, and the sessions it takes are real ones. -/
structure ReachesSubscribers (list : ClientList) : Prop where
  sent : ∃ recipients : List (ClientId × SessionAddr), (recipients.map Prod.fst).Nodup ∧
    (∀ c s, (c, s) ∈ recipients ↔ list.isSubscribed c = .ok true ∧ list.getSession c = .ok (some s)) ∧
    ∀ message, list.broadcastToSubscribed message = .ok (recipients.map fun r => .sendMsg r.2 message)
  real : list.getSubscribedSessions ⊆ list.getAllSessions

/-- No client comes to be subscribed without a session. -/
def KeepsSubscribersReal (list : ClientList) : ClientListOp → Prop
  | .addSession id none => list.isSubscribed id ≠ .ok true
  | .subscribe id => list.getSession id ≠ .ok none
  | _ => True

/-- Every subscribed client has a session. -/
def SubscribersReal (list : ClientList) : Prop :=
  ∀ c, list.isSubscribed c = .ok true → list.getSession c ≠ .ok none

variable {evaluation : OperandOrder} {list : ClientList}

/-- A broadcast that gets by every pointer sends the message to each session. -/
theorem broadcast_cases (message : List UInt8) (sessions : List SessionPtr) :
    sessions.mapM (send message) = .error .undefinedBehaviour ∨
      ∃ calls, sessions.mapM (send message) = .ok calls ∧
        ∀ s, some s ∈ sessions → .sendMsg s message ∈ calls := by
  induction sessions with
  | nil => exact Or.inr ⟨[], rfl, fun s member => by simp at member⟩
  | cons session sessions ih =>
    rw [List.mapM_cons]
    cases session with
    | none => exact Or.inl rfl
    | some s =>
      rcases ih with failed | ⟨calls, sent, reached⟩
      · exact Or.inl (by rw [failed]; rfl)
      · refine Or.inr ⟨.sendMsg s message :: calls, by rw [sent]; rfl, fun t member => ?_⟩
        rcases List.mem_cons.mp member with same | other
        · cases Option.some.inj same
          exact List.mem_cons_self
        · exact List.mem_cons_of_mem _ (reached t other)

/-- A broadcast that returns has sent its message to sessions of the list and to nobody else. -/
theorem mapM_send {message : List UInt8} {sessions : List SessionPtr} {calls : List SessionCall}
    (sent : sessions.mapM (send message) = .ok calls) :
    ∀ call ∈ calls, ∃ session, some session ∈ sessions ∧ call = .sendMsg session message := by
  induction sessions generalizing calls with
  | nil =>
    rw [List.mapM_nil] at sent
    cases Except.ok.inj sent
    simp
  | cons session sessions ih =>
    rw [List.mapM_cons] at sent
    cases session with
    | none => contradiction
    | some s =>
      cases others : sessions.mapM (send message) with
      | error failure => rw [others] at sent; contradiction
      | ok rest =>
        rw [others] at sent
        obtain rfl := Except.ok.inj sent
        intro call member
        rcases List.mem_cons.mp member with rfl | member
        · exact ⟨s, List.mem_cons_self, rfl⟩
        · obtain ⟨t, inside, same⟩ := ih others call member
          exact ⟨t, List.mem_cons_of_mem _ inside, same⟩

/-- A message for one client that returns has gone to its session. -/
theorem broadcastToCertain_ok {id : ClientId} {message : List UInt8} {calls : List SessionCall}
    (sent : list.broadcastToCertain id message = .ok calls) :
    ∃ s, list.getSession id = .ok (some s) ∧ calls = [.sendMsg s message] := by
  unfold broadcastToCertain at sent
  cases bound : list.getSession id with
  | error failure => rw [bound] at sent; contradiction
  | ok session =>
    rw [bound] at sent
    cases session with
    | none => contradiction
    | some s => exact ⟨s, rfl, (Except.ok.inj sent).symm⟩

theorem mem_getSubscribedSessions {c : ClientId} {p : SessionPtr} (bound : list.getSession c = .ok p)
    (subscribed : list.isSubscribed c = .ok true) : p ∈ list.getSubscribedSessions := by
  obtain ⟨ctx, registered, rfl⟩ := getSession_eq_ok.mp bound
  have flag : ctx.subscribed = true := by
    simpa [isSubscribed, context, registered, Except.map] using subscribed
  have entry := AList.mem_lookup_iff.mp registered
  exact List.mem_map.mpr ⟨⟨c, ctx⟩, List.mem_filter.mpr ⟨entry, flag⟩, rfl⟩

/-- The recipient that an entry of the map stands for. -/
def recipient (entry : (_ : ClientId) × ClientContext) : Option (ClientId × SessionAddr) :=
  if entry.2.subscribed then entry.2.session.map fun s => (entry.1, s) else none

theorem recipient_eq_some {entry : (_ : ClientId) × ClientContext} {c : ClientId} {s : SessionAddr} :
    recipient entry = some (c, s) ↔ entry.1 = c ∧ entry.2.subscribed = true ∧ entry.2.session = some s := by
  unfold recipient
  split <;> simp_all [and_comm]

theorem recipients_nodup (entries : List ((_ : ClientId) × ClientContext)) (unique : entries.NodupKeys) :
    ((entries.filterMap recipient).map Prod.fst).Nodup := by
  have kept : ((entries.filterMap recipient).map Prod.fst).Sublist entries.keys := by
    induction entries with
    | nil => exact .slnil
    | cons entry entries ih =>
      have rest := ih (List.nodupKeys_cons.mp unique).2
      cases found : recipient entry with
      | none => rw [List.filterMap_cons_none found]; exact rest.cons entry.1
      | some r =>
        rw [List.filterMap_cons_some found, List.map_cons, ← (recipient_eq_some.mp found).1]
        exact rest.cons_cons entry.1
  exact kept.nodup unique

theorem broadcast_recipients (message : List UInt8) {entries : List ((_ : ClientId) × ClientContext)}
    (real : ∀ entry ∈ entries, entry.2.subscribed = true → entry.2.session.isSome) :
    ((entries.filter fun entry => entry.2.subscribed).map fun entry => entry.2.session).mapM (send message) =
      .ok ((entries.filterMap recipient).map fun r => .sendMsg r.2 message) := by
  induction entries with
  | nil => rfl
  | cons entry entries ih =>
    have rest := ih fun other member => real other (List.mem_cons_of_mem _ member)
    by_cases subscribed : entry.2.subscribed = true
    · obtain ⟨s, session⟩ := Option.isSome_iff_exists.mp (real entry List.mem_cons_self subscribed)
      have first : recipient entry = some (entry.1, s) := recipient_eq_some.mpr ⟨rfl, subscribed, session⟩
      simp only [List.filter_cons, subscribed, if_true, List.map_cons, List.mapM_cons, session, rest,
        List.filterMap_cons_some first]
      rfl
    · have first : recipient entry = none := by simp [recipient, subscribed]
      simpa only [List.filter_cons, subscribed, Bool.false_eq_true, if_false,
        List.filterMap_cons_none first] using rest

theorem SubscribersReal.reachesSubscribers (real : list.SubscribersReal) : list.ReachesSubscribers := by
  have known : ∀ entry ∈ list.clients.entries, entry.2.subscribed = true → entry.2.session.isSome := by
    intro entry member subscribed
    have registered := AList.mem_lookup_iff.mpr member
    have never := real entry.1 (isSubscribed_iff.mpr (by rw [registered]; exact congrArg some subscribed))
    rw [Option.isSome_iff_ne_none]
    intro null
    exact never (getSession_eq_ok.mpr ⟨entry.2, registered, null⟩)
  refine ⟨⟨list.clients.entries.filterMap recipient, recipients_nodup _ list.clients.nodupKeys, ?_, ?_⟩, ?_⟩
  · intro c s
    rw [isSubscribed_iff, getSession_eq_ok, List.mem_filterMap]
    constructor
    · rintro ⟨⟨_, ctx⟩, member, found⟩
      obtain ⟨rfl, subscribed, session⟩ := recipient_eq_some.mp found
      have registered := AList.mem_lookup_iff.mpr member
      exact ⟨by rw [registered]; exact congrArg some subscribed, ctx, registered, session⟩
    · rintro ⟨subscribed, ctx, registered, session⟩
      rw [registered] at subscribed
      exact ⟨⟨c, ctx⟩, AList.mem_lookup_iff.mp registered,
        recipient_eq_some.mpr ⟨rfl, Option.some.inj subscribed, session⟩⟩
  · exact fun message => broadcast_recipients message known
  · intro p member
    obtain ⟨entry, inside, rfl⟩ := List.mem_map.mp member
    obtain ⟨inside, subscribed⟩ := List.mem_filter.mp inside
    exact List.mem_filter.mpr ⟨List.mem_map_of_mem inside, known entry inside subscribed⟩

theorem ReachesSubscribers.subscribersReal (reaches : list.ReachesSubscribers) : list.SubscribersReal := by
  intro c subscribed null
  have listed := reaches.real (mem_getSubscribedSessions null subscribed)
  exact absurd (List.mem_filter.mp listed).2 (by simp)

theorem SubscribersReal.step {op : ClientListOp} {after : ClientList} (real : list.SubscribersReal)
    (keeps : list.KeepsSubscribersReal op) (moved : list.stepBy evaluation op = some after) :
    after.SubscribersReal := by
  intro c subscribed null
  have before := (isSubscribed_step moved c).mp subscribed
  rcases step_sessions moved with ⟨id, p, rfl, rfl⟩ | ⟨id, rfl, rfl⟩ | ⟨_, _, sessions⟩
  · have still : list.isSubscribed c = .ok true := by simpa using before
    by_cases own : c = id
    · subst own
      rw [getSession_addSession_self] at null
      cases Except.ok.inj null
      exact keeps still
    · rw [getSession_addSession_of_ne own] at null
      exact real c still null
  · by_cases own : c = id
    · subst own
      exact getSession_removeSession_self c none null
    · rw [getSession_removeSession_of_ne own] at null
      exact real c (by simpa [Ne.symm own] using before) null
  · rw [sessions] at null
    rcases before with ⟨rfl, _⟩ | ⟨_, still⟩
    · exact keeps null
    · exact real c still null

/-- A call that leaves a client subscribed without a session. -/
theorem not_subscribersReal_of_call {op : ClientListOp} {after : ClientList} (breaks : ¬list.KeepsSubscribersReal op)
    (moved : list.stepBy evaluation op = some after) : ¬after.SubscribersReal := by
  intro real
  cases op with
  | addSession id p =>
    cases p with
    | some s => exact breaks trivial
    | none =>
      have subscribed := not_not.mp breaks
      refine real id ((isSubscribed_step moved id).mpr (Or.inr ⟨by simp, subscribed⟩)) ?_
      obtain rfl := step_eq_some moved
      exact getSession_addSession_self id none
  | subscribe id =>
    have null := not_not.mp breaks
    obtain ⟨ctx, registered, _⟩ := getSession_eq_ok.mp null
    have known : list.hasClient id = true := by rw [hasClient, registered]; rfl
    refine real id ((isSubscribed_step moved id).mpr (Or.inl ⟨rfl, known⟩)) ?_
    rcases step_sessions moved with ⟨_, _, other, _⟩ | ⟨_, other, _⟩ | ⟨_, _, sessions⟩
    · contradiction
    · contradiction
    · rw [sessions, null]
  | _ => exact breaks trivial

/-- Along any run of calls a broadcast reaches the subscribers exactly as
long as no client comes to be subscribed without a session. -/
theorem always_reachesSubscribers_iff (evaluation : OperandOrder) (ops : List ClientListOp) (last : ClientList)
    (run : exec (stepBy evaluation) {} ops = some last) :
    Always (stepBy evaluation) ReachesSubscribers {} ops ↔
      Guarded (stepBy evaluation) KeepsSubscribersReal {} ops := by
  have real : SubscribersReal {} := fun c subscribed => by simp [isSubscribed, context, Except.map] at subscribed
  refine always_iff_guarded_of_invariant (fun _ => SubscribersReal.reachesSubscribers) ?_ ?_ run real
  · exact fun _ _ _ real keeps moved => real.step keeps moved
  · exact fun _ _ _ _ breaks moved reaches => not_subscribersReal_of_call breaks moved reaches.subscribersReal

/-- A client subscribed before it has a session: the broadcast follows a null pointer. -/
theorem sessionless_subscriber_not_reached : ¬∀ ops last, exec step {} ops = some last → last.ReachesSubscribers := by
  intro claim
  have reaches := claim [.addSession 1 none, .subscribe 1] _ rfl
  obtain ⟨_, _, _, sent⟩ := reaches.sent
  have followed := sent []
  contradiction

/-- One subscriber with a session, and one client with neither. -/
theorem subscriber_reached :
    Always step ReachesSubscribers {} [.addSession 1 (some 7), .addSession 2 none, .subscribe 1] := by
  refine (always_reachesSubscribers_iff .rightFirst _ _ rfl).mpr ?_
  refine guarded_cons trivial rfl (guarded_cons ?_ rfl (guarded_cons ?_ rfl (guarded_nil _ _ _)))
  · show isSubscribed 2 _ ≠ .ok true
    decide
  · show getSession 1 _ ≠ .ok none
    decide

end Stakan.ClientList
