import Stakan.ClientList.Contexts
import Stakan.Library.History

namespace Stakan.ClientList
open LabelledRun History

variable (evaluation : OperandOrder)

/-- The client is registered after these calls on an empty list. -/
def Registered (c : ClientId) (ops : List ClientListOp) : Prop :=
  ∃ list, exec (stepBy evaluation) {} ops = some list ∧ list.hasClient c = true

/-- The client has been subscribed since it was last created. -/
def EverSubscribed (c : ClientId) : List ClientListOp → Prop :=
  Since (fun before op => op = .subscribe c ∧ Registered evaluation c before) fun op => op ≠ .removeSession c

/-- The latest call to subscribe or unsubscribe the client since it was last
created has been to subscribe it. -/
def LastSubscribed (c : ClientId) : List ClientListOp → Prop :=
  Since (fun before op => op = .subscribe c ∧ Registered evaluation c before) fun op =>
    op ≠ .removeSession c ∧ op ≠ .unsubscribe c

/-- A client that had been subscribed was unsubscribed, and has neither been
removed nor subscribed again. -/
def Unsubscribed (c : ClientId) : List ClientListOp → Prop :=
  Since (fun before op => op = .unsubscribe c ∧ EverSubscribed evaluation c before) fun op =>
    op ≠ .removeSession c ∧ op ≠ .subscribe c

/-- The calls that may change whether a client is subscribed. -/
def Concerns (c : ClientId) (list : ClientList) : ClientListOp → Prop
  | .subscribe id | .unsubscribe id | .removeSession id => id = c
  | .addSession id _ => id = c ∧ list.hasClient c = false
  | _ => False

/-- Both queries tell who is subscribed, and only the calls that concern a
client change that. -/
structure SubscriptionsTracked (ops : List ClientListOp) (list : ClientList) : Prop where
  reported : ∀ c, c ∈ list.getSubscribedClients ↔ LastSubscribed evaluation c ops
  flagged : ∀ c, list.isSubscribed c = .ok true ↔ LastSubscribed evaluation c ops
  unchanged : ∀ c op after, list.stepBy evaluation op = some after → ¬Concerns c list op →
    after.isSubscribed c = list.isSubscribed c ∧ (c ∈ after.getSubscribedClients ↔ c ∈ list.getSubscribedClients)

variable {evaluation} {list : ClientList}

theorem isSubscribed_iff {c : ClientId} :
    list.isSubscribed c = .ok true ↔ (list.clients.lookup c).map ClientContext.subscribed = some true := by
  unfold isSubscribed context
  cases list.clients.lookup c <;> simp [Except.map]

theorem mem_getSubscribedClients {c : ClientId} :
    c ∈ list.getSubscribedClients ↔ list.isSubscribed c = .ok true := by
  rw [isSubscribed_iff]
  simp only [getSubscribedClients, List.mem_map, List.mem_filter, Option.map_eq_some_iff]
  constructor
  · rintro ⟨⟨_, ctx⟩, ⟨entry, subscribed⟩, rfl⟩
    exact ⟨ctx, AList.mem_lookup_iff.mpr entry, subscribed⟩
  · rintro ⟨ctx, found, subscribed⟩
    exact ⟨⟨c, ctx⟩, ⟨AList.mem_lookup_iff.mp found, subscribed⟩, rfl⟩

/-- When a call leaves a client subscribed. Unsubscribing does not count: it
is done to a copy. -/
theorem isSubscribed_step {op : ClientListOp} {after : ClientList} (moved : list.stepBy evaluation op = some after)
    (c : ClientId) :
    after.isSubscribed c = .ok true ↔ op = .subscribe c ∧ list.hasClient c = true ∨
      op ≠ .removeSession c ∧ list.isSubscribed c = .ok true := by
  rw [isSubscribed_iff, isSubscribed_iff, lookup_step moved c, hasClient]
  cases op with
  | addSession id p | addBid id _ | addAsk id _ | removeBid id _ | removeAsk id _ | removeSession id | subscribe id =>
    by_cases own : id = c
    · cases list.clients.lookup c <;> simp [ClientContext.after, own]
    · simp [ClientContext.after, own]
  | _ => simp [ClientContext.after]

theorem isSubscribed_congr {after : ClientList} {c : ClientId}
    (same : (after.clients.lookup c).map ClientContext.subscribed =
      (list.clients.lookup c).map ClientContext.subscribed) :
    after.isSubscribed c = list.isSubscribed c := by
  have flag (clients : ClientList) : clients.isSubscribed c =
      match (clients.clients.lookup c).map ClientContext.subscribed with
      | some subscribed => .ok subscribed
      | none => .error (noClient c) := by
    unfold isSubscribed context
    cases clients.clients.lookup c <;> rfl
  rw [flag, flag, same]

theorem isSubscribed_of_not_concerns {op : ClientListOp} {after : ClientList} {c : ClientId}
    (moved : list.stepBy evaluation op = some after) (other : ¬Concerns c list op) :
    after.isSubscribed c = list.isSubscribed c := by
  refine isSubscribed_congr ?_
  rw [lookup_step moved c]
  cases op with
  | addSession id p =>
    by_cases own : id = c
    · cases registered : list.clients.lookup c with
      | none => exact absurd ⟨own, by rw [hasClient, registered]; rfl⟩ other
      | some ctx => simp [ClientContext.after, own]
    · simp [ClientContext.after, own]
  | removeSession id | subscribe id =>
    have different : id ≠ c := other
    simp [ClientContext.after, different]
  | addBid id _ | addAsk id _ | removeBid id _ | removeAsk id _ =>
    simp only [ClientContext.after]
    split
    next => rw [Option.map_map]; rfl
    next => rfl
  | _ => rfl

theorem everSubscribed_snoc {c : ClientId} {ops : List ClientListOp} {op : ClientListOp} :
    EverSubscribed evaluation c (ops ++ [op]) ↔ op = .subscribe c ∧ Registered evaluation c ops ∨
      op ≠ .removeSession c ∧ EverSubscribed evaluation c ops := since_snoc

theorem lastSubscribed_snoc {c : ClientId} {ops : List ClientListOp} {op : ClientListOp} :
    LastSubscribed evaluation c (ops ++ [op]) ↔ op = .subscribe c ∧ Registered evaluation c ops ∨
      (op ≠ .removeSession c ∧ op ≠ .unsubscribe c) ∧ LastSubscribed evaluation c ops := since_snoc

theorem unsubscribed_snoc {c : ClientId} {ops : List ClientListOp} {op : ClientListOp} :
    Unsubscribed evaluation c (ops ++ [op]) ↔ op = .unsubscribe c ∧ EverSubscribed evaluation c ops ∨
      (op ≠ .removeSession c ∧ op ≠ .subscribe c) ∧ Unsubscribed evaluation c ops := since_snoc

theorem registered_iff {ops : List ClientListOp} (run : exec (stepBy evaluation) {} ops = some list) (c : ClientId) :
    Registered evaluation c ops ↔ list.hasClient c = true := by
  constructor
  · intro registered
    obtain ⟨same, again, known⟩ := registered
    obtain rfl := Option.some.inj (again.symm.trans run)
    exact known
  · intro known
    exact ⟨list, run, known⟩

/-- The flag of a client is set once it has been subscribed, and stays so until it is removed. -/
theorem isSubscribed_iff_everSubscribed {ops : List ClientListOp} (run : exec (stepBy evaluation) {} ops = some list)
    (c : ClientId) : list.isSubscribed c = .ok true ↔ EverSubscribed evaluation c ops := by
  induction ops using List.reverseRecOn generalizing list with
  | nil =>
    obtain rfl := Option.some.inj run
    simp only [EverSubscribed, not_since_nil, iff_false]
    simp [isSubscribed, context, Except.map]
  | append_singleton ops op ih =>
    obtain ⟨former, first, moved⟩ := exec_snoc_split run
    rw [isSubscribed_step moved c, everSubscribed_snoc, registered_iff first, ih first]

theorem hasClient_of_isSubscribed {c : ClientId} (subscribed : list.isSubscribed c = .ok true) :
    list.hasClient c = true := by
  obtain ⟨ctx, found, _⟩ := Option.map_eq_some_iff.mp (isSubscribed_iff.mp subscribed)
  rw [hasClient, found]
  rfl

/-- A client that has been subscribed either still is meant to be, or has been unsubscribed. -/
theorem everSubscribed_cases {ops : List ClientListOp} (run : exec (stepBy evaluation) {} ops = some list)
    (c : ClientId) :
    (EverSubscribed evaluation c ops ↔ LastSubscribed evaluation c ops ∨ Unsubscribed evaluation c ops) ∧
      ¬(LastSubscribed evaluation c ops ∧ Unsubscribed evaluation c ops) := by
  induction ops using List.reverseRecOn generalizing list with
  | nil => simp [EverSubscribed, LastSubscribed, Unsubscribed, not_since_nil]
  | append_singleton ops op ih =>
    obtain ⟨former, first, moved⟩ := exec_snoc_split run
    obtain ⟨either, exclusive⟩ := ih first
    have known : EverSubscribed evaluation c ops → Registered evaluation c ops := fun ever =>
      (registered_iff first c).mpr (hasClient_of_isSubscribed ((isSubscribed_iff_everSubscribed first c).mpr ever))
    rw [everSubscribed_snoc, lastSubscribed_snoc, unsubscribed_snoc]
    by_cases subscribes : op = .subscribe c
    · subst subscribes
      simp only [ne_eq, reduceCtorEq, not_false_eq_true, true_and, not_true, and_false, false_and, or_false]
      grind
    · by_cases unsubscribes : op = .unsubscribe c
      · subst unsubscribes
        simp only [ne_eq, reduceCtorEq, not_false_eq_true, true_and, not_true, and_false, false_and, false_or]
        grind
      · grind

/-- Who is subscribed is told rightly as long as no client that has been
subscribed is left unsubscribed. -/
theorem subscriptionsTracked_iff (evaluation : OperandOrder) (ops : List ClientListOp) (list : ClientList)
    (run : exec (stepBy evaluation) {} ops = some list) :
    SubscriptionsTracked evaluation ops list ↔ ∀ c, ¬Unsubscribed evaluation c ops := by
  constructor
  · intro tracked c unsubscribed
    obtain ⟨either, exclusive⟩ := everSubscribed_cases run c
    have flag := (isSubscribed_iff_everSubscribed run c).mpr (either.mpr (Or.inr unsubscribed))
    exact exclusive ⟨(tracked.flagged c).mp flag, unsubscribed⟩
  · intro never
    have flagged : ∀ c, list.isSubscribed c = .ok true ↔ LastSubscribed evaluation c ops := by
      intro c
      rw [isSubscribed_iff_everSubscribed run c, (everSubscribed_cases run c).1, or_iff_left (never c)]
    refine ⟨fun c => mem_getSubscribedClients.trans (flagged c), flagged, fun c op after moved other => ?_⟩
    have same := isSubscribed_of_not_concerns moved other
    exact ⟨same, by rw [mem_getSubscribedClients, mem_getSubscribedClients, same]⟩

/-- Unsubscribing leaves the client subscribed. -/
theorem unsubscribed_client_reported :
    ¬∀ ops list, exec step {} ops = some list → SubscriptionsTracked .rightFirst ops list := by
  intro claim
  have tracked := claim [.addSession 1 (some 7), .subscribe 1, .unsubscribe 1] _ rfl
  have subscribed : LastSubscribed .rightFirst 1 ([.addSession 1 (some 7), .subscribe 1] ++ [.unsubscribe 1]) :=
    (tracked.flagged 1).mp rfl
  rw [lastSubscribed_snoc] at subscribed
  simp at subscribed

/-- A client that reconnects stays subscribed. -/
theorem reconnected_client_tracked : ∃ list : ClientList, list.isSubscribed 1 = .ok true ∧
    SubscriptionsTracked .rightFirst [.addSession 1 (some 7), .subscribe 1, .addSession 1 (some 8)] list := by
  let ops : List ClientListOp := [.addSession 1 (some 7), .subscribe 1, .addSession 1 (some 8)]
  obtain ⟨list, run, subscribed⟩ : ∃ list, exec step {} ops = some list ∧ list.isSubscribed 1 = .ok true :=
    ⟨_, rfl, rfl⟩
  refine ⟨list, subscribed, (subscriptionsTracked_iff .rightFirst ops list run).mpr fun c => ?_⟩
  rintro ⟨before, op, after, split, ⟨rfl, _⟩, _⟩
  have member : ClientListOp.unsubscribe c ∈ ops := by rw [split]; simp
  simp [ops] at member

end Stakan.ClientList
