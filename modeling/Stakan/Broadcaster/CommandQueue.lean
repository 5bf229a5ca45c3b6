import Mathlib.Data.List.Nodup
import Mathlib.Data.List.Range
import Stakan.Interface
import Stakan.Library.LabelledRun

namespace Stakan

abbrev SessionId := UInt64

inductive UpdateType
  | add
  | modify
  | delete

/-- The provisional `MDUpdate` of the queue, outside the namespace `common`. -/
structure QueuedMDUpdate where
  type : UpdateType
  isBid : Bool := true
  order : Order

inductive CommandType
  | sendSnapshot
  | sendMDUpdate
  deriving DecidableEq

/-- The data of the two classes of commands. -/
inductive CommandData
  | snapshot (data : Snapshot)
  | mdUpdate (data : QueuedMDUpdate)

structure BroadcastCommand where
  clientId : Option SessionId := none
  data : CommandData

/-- The type that the constructor of each class gives its commands. -/
def BroadcastCommand.type (cmd : BroadcastCommand) : CommandType :=
  match cmd.data with
  | .snapshot _ => .sendSnapshot
  | .mdUpdate _ => .sendMDUpdate

/-- An owned command at its address. -/
structure CommandPtr where
  addr : Nat
  cmd : BroadcastCommand

namespace CommandQueue
open LabelledRun

def push (cmd : CommandPtr) (queue : List CommandPtr) : List CommandPtr :=
  (if cmd.cmd.clientId = none then [] else queue) ++ [cmd]

theorem push_targeted {p : CommandPtr} (targeted : p.cmd.clientId ≠ none) (queue : List CommandPtr) :
    push p queue = queue ++ [p] := by rw [push, if_neg targeted]

theorem push_untargeted {p : CommandPtr} (untargeted : p.cmd.clientId = none) (queue : List CommandPtr) :
    push p queue = [p] := by rw [push, if_pos untargeted, List.nil_append]

/-- The front of the queue; on an empty queue the caller waits. -/
def pop : List CommandPtr → Option (CommandPtr × List CommandPtr)
  | front :: rest => some (front, rest)
  | [] => none

/-- The queue with its history. Every command that is pushed is a new object. -/
structure Trace where
  queue : List CommandPtr := []
  pushed : List CommandPtr := []
  popped : List CommandPtr := []

def Trace.next (trace : Trace) (cmd : BroadcastCommand) : CommandPtr := ⟨trace.pushed.length, cmd⟩

inductive QueueOp
  | push (cmd : BroadcastCommand)
  | pop

def step (trace : Trace) : QueueOp → Option Trace
  | .push cmd => some {
      trace with queue := push (trace.next cmd) trace.queue, pushed := trace.pushed ++ [trace.next cmd] }
  | .pop => (pop trace.queue).map fun (front, rest) =>
      { trace with queue := rest, popped := trace.popped ++ [front] }

/-- A pop takes the front; an empty queue does not enable it. -/
theorem step_pop {trace after : Trace} (moved : step trace .pop = some after) :
    ∃ front rest, trace.queue = front :: rest ∧
      after = { trace with queue := rest, popped := trace.popped ++ [front] } := by
  obtain ⟨⟨front, rest⟩, popped, rfl⟩ := Option.map_eq_some_iff.mp moved
  unfold pop at popped
  split at popped
  next queue =>
    cases Option.some.inj popped
    exact ⟨front, rest, queue, rfl⟩
  next => contradiction

/-- Commands leave the queue in the order in which they came. -/
structure InOrder (trace : Trace) : Prop where
  sublist : (trace.popped ++ trace.queue).Sublist trace.pushed
  addrs : trace.pushed.map CommandPtr.addr = List.range trace.pushed.length

theorem InOrder.step {trace after : Trace} {op : QueueOp} (inOrder : InOrder trace)
    (moved : step trace op = some after) : InOrder after := by
  obtain ⟨sublist, addrs⟩ := inOrder
  cases op with
  | push cmd =>
    obtain rfl := Option.some.inj moved
    constructor
    · by_cases untargeted : cmd.clientId = none
      · rw [push_untargeted (p := trace.next cmd) untargeted]
        have popped := (List.sublist_append_left trace.popped trace.queue).trans sublist
        exact popped.append (List.Sublist.refl _)
      · rw [push_targeted (p := trace.next cmd) untargeted, ← List.append_assoc]
        exact sublist.append (List.Sublist.refl _)
    · simp only [List.map_append, addrs, List.length_append, List.map_cons, List.map_nil, List.length_singleton,
        List.range_succ, Trace.next]
  | pop =>
    obtain ⟨front, rest, queue, rfl⟩ := step_pop moved
    rw [queue] at sublist
    exact ⟨by simpa using sublist, addrs⟩

theorem inOrder_empty : InOrder {} := ⟨List.Sublist.refl _, rfl⟩

theorem InOrder.addr_lt {trace : Trace} {p : CommandPtr} (inOrder : InOrder trace) (pushed : p ∈ trace.pushed) :
    p.addr < trace.pushed.length := by
  have member := List.mem_map_of_mem (f := CommandPtr.addr) pushed
  rwa [inOrder.addrs, List.mem_range] at member

theorem InOrder.pushed_nodup {trace : Trace} (inOrder : InOrder trace) :
    (trace.pushed.map CommandPtr.addr).Nodup := by
  rw [inOrder.addrs]
  exact List.nodup_range

theorem InOrder.addr_injective {trace : Trace} {p q : CommandPtr} (inOrder : InOrder trace)
    (first : p ∈ trace.pushed) (second : q ∈ trace.pushed) (same : p.addr = q.addr) : p = q :=
  List.inj_on_of_nodup_map inOrder.pushed_nodup first second same

theorem InOrder.pending_pushed {trace : Trace} {p : CommandPtr} (inOrder : InOrder trace) (pending : p ∈ trace.queue) :
    p ∈ trace.pushed := inOrder.sublist.subset (List.mem_append_right _ pending)

theorem InOrder.not_popped {trace : Trace} {p : CommandPtr} (inOrder : InOrder trace) (pending : p ∈ trace.queue) :
    p ∉ trace.popped := by
  have disjoint := List.disjoint_of_nodup_append ((inOrder.pushed_nodup.of_map _).sublist inOrder.sublist)
  exact fun popped => disjoint popped pending

/-- The command is pending, or it has been popped, and only once. -/
def Kept (trace : Trace) (p : CommandPtr) : Prop :=
  (trace.queue.map CommandPtr.addr).count p.addr + (trace.popped.map CommandPtr.addr).count p.addr = 1

instance (trace : Trace) (p : CommandPtr) : Decidable (Kept trace p) := inferInstanceAs (Decidable (_ = 1))

theorem InOrder.kept_iff {trace : Trace} {p : CommandPtr} (inOrder : InOrder trace) (pushed : p ∈ trace.pushed) :
    Kept trace p ↔ p ∈ trace.popped ++ trace.queue := by
  have nodup : ((trace.popped ++ trace.queue).map CommandPtr.addr).Nodup :=
    (inOrder.sublist.map _).nodup inOrder.pushed_nodup
  have total : (trace.queue.map CommandPtr.addr).count p.addr + (trace.popped.map CommandPtr.addr).count p.addr =
      ((trace.popped ++ trace.queue).map CommandPtr.addr).count p.addr := by
    rw [List.map_append, List.count_append, add_comm]
  rw [Kept, total]
  constructor
  · intro once
    obtain ⟨q, member, same⟩ := List.mem_map.mp (List.count_pos_iff.mp (once ▸ Nat.one_pos))
    rwa [← inOrder.addr_injective (inOrder.sublist.subset member) pushed same]
  · intro member
    exact List.count_eq_one_of_mem nodup (List.mem_map_of_mem member)

def MDUpdatesKept (trace : Trace) : Prop :=
  ∀ p ∈ trace.pushed, p.cmd.type = .sendMDUpdate → Kept trace p

/-- An MD update is pushed behind all that is pending. -/
def MDUpdateKeepsPending (trace : Trace) : QueueOp → Prop
  | .push cmd => cmd.type = .sendMDUpdate → trace.queue ⊆ push (trace.next cmd) trace.queue
  | .pop => True

/-- A command for all clients finds nothing in the queue that its clearing
would lose: a snapshot no MD update, and an MD update nothing. -/
def ClearsNothing (trace : Trace) : QueueOp → Prop
  | .push cmd => cmd.clientId = none → match cmd.type with
    | .sendSnapshot => ∀ p ∈ trace.queue, p.cmd.type = .sendSnapshot
    | .sendMDUpdate => trace.queue = []
  | .pop => True

theorem ClearsNothing.keepsPending {trace : Trace} {op : QueueOp} (clears : ClearsNothing trace op) :
    MDUpdateKeepsPending trace op := by
  cases op with
  | push cmd =>
    intro update p pending
    by_cases untargeted : cmd.clientId = none
    · have empty := clears untargeted
      rw [update] at empty
      rw [empty] at pending
      contradiction
    · rw [push_targeted (p := trace.next cmd) untargeted]
      exact List.mem_append_left _ pending
  | pop => trivial

theorem MDUpdatesKept.step {trace after : Trace} {op : QueueOp} (inOrder : InOrder trace) (kept : MDUpdatesKept trace)
    (clears : ClearsNothing trace op) (moved : CommandQueue.step trace op = some after) : MDUpdatesKept after := by
  have inOrderAfter := inOrder.step moved
  intro p pushed update
  rw [inOrderAfter.kept_iff pushed]
  cases op with
  | push cmd =>
    obtain rfl := Option.some.inj moved
    rcases List.mem_append.mp pushed with old | new
    · have member := (inOrder.kept_iff old).mp (kept p old update)
      by_cases untargeted : cmd.clientId = none
      · have clears := clears untargeted
        rcases List.mem_append.mp member with popped | pending
        · exact List.mem_append_left _ popped
        · split at clears
          next => have other := clears p pending; rw [update] at other; contradiction
          next => rw [clears] at pending; contradiction
      · rw [push_targeted (p := trace.next cmd) untargeted, ← List.append_assoc]
        exact List.mem_append_left _ member
    · exact List.mem_append_right _ (List.mem_append_right _ new)
  | pop =>
    obtain ⟨front, rest, queue, rfl⟩ := step_pop moved
    have member := (inOrder.kept_iff pushed).mp (kept p pushed update)
    rw [queue] at member
    simpa [or_assoc] using member

theorem clearsNothing_of_kept {trace after : Trace} {op : QueueOp} (inOrder : InOrder trace)
    (moved : step trace op = some after) (kept : MDUpdatesKept after) (keeps : MDUpdateKeepsPending trace op) :
    ClearsNothing trace op := by
  cases op with
  | pop => trivial
  | push cmd =>
    intro untargeted
    have cleared := push_untargeted (p := trace.next cmd) untargeted trace.queue
    have fresh : ∀ p ∈ trace.queue, p ≠ trace.next cmd := by
      intro p pending same
      have bound := inOrder.addr_lt (inOrder.pending_pushed pending)
      rw [same, Trace.next] at bound
      exact absurd bound (lt_irrefl _)
    split
    next snapshot =>
      intro p pending
      by_contra update
      have update : p.cmd.type = .sendMDUpdate := by
        cases type : p.cmd.type
        case sendSnapshot => exact absurd type update
        case sendMDUpdate => rfl
      have inOrderAfter := inOrder.step moved
      obtain rfl := Option.some.inj moved
      have pushed : p ∈ trace.pushed ++ [trace.next cmd] := List.mem_append_left _ (inOrder.pending_pushed pending)
      have member := (inOrderAfter.kept_iff pushed).mp (kept p pushed update)
      rw [cleared, List.mem_append, List.mem_singleton] at member
      exact member.elim (inOrder.not_popped pending) (fresh p pending)
    next update =>
      have pending := keeps update
      rw [cleared] at pending
      refine List.eq_nil_iff_forall_not_mem.mpr fun p member => ?_
      exact fresh p member (List.mem_singleton.mp (pending member))

/-- MD updates stay out of the absorption: none is lost, and none removes anything. -/
def MDUpdatesNotAbsorbed (ops : List QueueOp) : Prop :=
  Always step MDUpdatesKept {} ops ∧ Guarded step MDUpdateKeepsPending {} ops

/-- MD updates stay out of the absorption exactly in the runs that push no
command for all clients over commands that its clearing would lose. -/
theorem mdUpdatesNotAbsorbed_iff (ops : List QueueOp) (last : Trace) (run : exec step {} ops = some last) :
    MDUpdatesNotAbsorbed ops ↔ Guarded step ClearsNothing {} ops := by
  constructor
  · rintro ⟨always, keeps⟩ before op after trace split first
    have inOrder : InOrder trace := exec_invariant (fun _ _ _ inOrder => inOrder.step) first inOrder_empty
    have keepsHere := keeps before op after trace split first
    subst split
    rw [exec_trans first] at run
    obtain ⟨next, moved, _⟩ := exec_cons_split run
    exact clearsNothing_of_kept inOrder moved (always.next first moved) keepsHere
  · intro guarded
    have preserved : ∀ trace op after, InOrder trace ∧ MDUpdatesKept trace → ClearsNothing trace op →
        step trace op = some after → InOrder after ∧ MDUpdatesKept after := by
      intro trace op after both clears moved
      exact ⟨both.1.step moved, both.2.step both.1 clears moved⟩
    have initial : InOrder {} ∧ MDUpdatesKept {} := ⟨inOrder_empty, fun p pushed => by simp at pushed⟩
    have kept := (guarded.always preserved initial).mono fun _ => And.right
    exact ⟨kept, guarded.mono fun _ _ clears => clears.keepsPending⟩

/-- An MD update that a snapshot for all clients has cleared. -/
theorem cleared_mdUpdate : ¬∀ ops last, exec step {} ops = some last → MDUpdatesNotAbsorbed ops := by
  intro claim
  let update : BroadcastCommand := { data := .mdUpdate ⟨.add, true, {}⟩ }
  have kept := (claim [.push update, .push { data := .snapshot {} }] _ rfl).1 _ [] _ (List.append_nil _).symm rfl
  exact absurd (kept ⟨0, update⟩ (by simp [update, Trace.next]) rfl) (by decide)

/-- An MD update that the broadcaster takes before the next snapshot. -/
theorem popped_mdUpdate_kept :
    MDUpdatesNotAbsorbed [.push { data := .mdUpdate ⟨.add, true, {}⟩ }, .pop, .push { data := .snapshot {} }] := by
  refine (mdUpdatesNotAbsorbed_iff _ _ rfl).mpr ?_
  refine guarded_cons (fun _ => rfl) rfl (guarded_cons trivial rfl (guarded_cons ?_ rfl (guarded_nil _ _ _)))
  intro _ p pending
  contradiction

end CommandQueue

end Stakan
