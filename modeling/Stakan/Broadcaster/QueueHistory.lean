import Stakan.Broadcaster.CommandQueue

namespace Stakan.CommandQueue
open LabelledRun

/-- A command that a push of a command for all clients found in the queue. -/
def ClearedBy (ops : List QueueOp) (p : CommandPtr) : Prop :=
  ∃ before cmd after former, ops = before ++ .push cmd :: after ∧ cmd.clientId = none ∧
    exec step {} before = some former ∧ p ∈ former.queue

/-- How the queue stands to the logs of the pushed and the popped commands
after a history of operations. -/
structure HistorySound (ops : List QueueOp) (trace : Trace) : Prop where
  order : trace.popped.Sublist trace.pushed
  once : (trace.popped.map CommandPtr.addr).Nodup
  distinct : (trace.pushed.map CommandPtr.addr).Nodup
  untargeted_first : ∀ i p, trace.queue[i]? = some p → p.cmd.clientId = none → i = 0
  cleared : ∀ p ∈ trace.pushed, p ∉ trace.queue → p ∉ trace.popped → ClearedBy ops p
  latest : ∀ p, trace.pushed.getLast? = some p → p ∈ trace.queue ∨ p ∈ trace.popped

theorem ClearedBy.snoc {ops : List QueueOp} {p : CommandPtr} (cleared : ClearedBy ops p) (op : QueueOp) :
    ClearedBy (ops ++ [op]) p := by
  obtain ⟨before, cmd, after, former, split, untargeted, run, pending⟩ := cleared
  refine ⟨before, cmd, after ++ [op], former, ?_, untargeted, run, pending⟩
  rw [split, List.append_assoc, List.cons_append]

/-- A command for all clients comes to the front of an emptied queue and
leaves from there; no other one moves behind it. -/
theorem untargeted_first_step {trace after : Trace} {op : QueueOp}
    (first : ∀ i p, trace.queue[i]? = some p → p.cmd.clientId = none → i = 0) (moved : step trace op = some after) :
    ∀ i p, after.queue[i]? = some p → p.cmd.clientId = none → i = 0 := by
  intro i p at_i untargeted
  cases op with
  | push cmd =>
    obtain rfl := Option.some.inj moved
    by_cases all : cmd.clientId = none
    · rw [push_untargeted (p := trace.next cmd) all] at at_i
      have within := (List.getElem?_eq_some_iff.mp at_i).1
      rw [List.length_singleton] at within
      omega
    · rw [push_targeted (p := trace.next cmd) all] at at_i
      by_cases old : i < trace.queue.length
      · rw [List.getElem?_append_left old] at at_i
        exact first i p at_i untargeted
      · rw [List.getElem?_append_right (by omega)] at at_i
        obtain rfl := List.mem_singleton.mp (List.mem_of_getElem? at_i)
        exact absurd untargeted all
  | pop =>
    obtain ⟨front, rest, queue, rfl⟩ := step_pop moved
    have behind : trace.queue[i + 1]? = some p := by rw [queue, List.getElem?_cons_succ, at_i]
    have impossible := first (i + 1) p behind untargeted
    omega

/-- A command that a step takes out of the queue without popping it is there
when a command for all clients is pushed. -/
theorem cleared_step {ops : List QueueOp} {trace after : Trace} {op : QueueOp} (run : exec step {} ops = some trace)
    (cleared : ∀ p ∈ trace.pushed, p ∉ trace.queue → p ∉ trace.popped → ClearedBy ops p)
    (moved : step trace op = some after) :
    ∀ p ∈ after.pushed, p ∉ after.queue → p ∉ after.popped → ClearedBy (ops ++ [op]) p := by
  intro p pushed notPending notPopped
  cases op with
  | push cmd =>
    obtain rfl := Option.some.inj moved
    have old : p ∈ trace.pushed := by
      rcases List.mem_append.mp pushed with old | new
      · exact old
      · exact absurd (List.mem_append_right _ new) notPending
    by_cases pending : p ∈ trace.queue
    · refine ⟨ops, cmd, [], trace, rfl, ?_, run, pending⟩
      by_contra targeted
      rw [push_targeted (p := trace.next cmd) targeted] at notPending
      exact notPending (List.mem_append_left _ pending)
    · exact (cleared p old pending notPopped).snoc _
  | pop =>
    obtain ⟨front, rest, queue, rfl⟩ := step_pop moved
    refine (cleared p pushed (fun pending => ?_) fun popped => notPopped (List.mem_append_left _ popped)).snoc _
    rw [queue] at pending
    rcases List.mem_cons.mp pending with rfl | later
    · exact notPopped (List.mem_append_right _ List.mem_cons_self)
    · exact notPending later

/-- No push clears the command that it brings. -/
theorem latest_step {trace after : Trace} {op : QueueOp}
    (latest : ∀ p, trace.pushed.getLast? = some p → p ∈ trace.queue ∨ p ∈ trace.popped)
    (moved : step trace op = some after) :
    ∀ p, after.pushed.getLast? = some p → p ∈ after.queue ∨ p ∈ after.popped := by
  intro p last
  cases op with
  | push cmd =>
    obtain rfl := Option.some.inj moved
    rw [List.getLast?_concat] at last
    obtain rfl := Option.some.inj last
    exact Or.inl (List.mem_append_right _ List.mem_cons_self)
  | pop =>
    obtain ⟨front, rest, queue, rfl⟩ := step_pop moved
    rcases latest p last with pending | popped
    · rw [queue] at pending
      rcases List.mem_cons.mp pending with rfl | later
      · exact Or.inr (List.mem_append_right _ List.mem_cons_self)
      · exact Or.inl later
    · exact Or.inr (List.mem_append_left _ popped)

/-- The law of the queue, after any pushes and pops: a command is lost only
to a later one for all clients, pushed while it was pending. -/
theorem run_historySound {ops : List QueueOp} {trace : Trace} (run : exec step {} ops = some trace) :
    HistorySound ops trace := by
  induction ops using List.reverseRecOn generalizing trace with
  | nil =>
    obtain rfl := Option.some.inj run
    refine ⟨.refl _, .nil, .nil, fun i p at_i => ?_, fun p pushed => absurd pushed List.not_mem_nil, fun p last => ?_⟩
    · exact absurd at_i (by simp)
    · exact absurd last (by simp)
  | append_singleton ops op ih =>
    obtain ⟨former, first, moved⟩ := exec_snoc_split run
    have before := ih first
    have inOrder : InOrder trace := exec_invariant (fun _ _ _ inOrder => inOrder.step) run inOrder_empty
    have order := (List.sublist_append_left trace.popped trace.queue).trans inOrder.sublist
    exact ⟨order, (order.map _).nodup inOrder.pushed_nodup, inOrder.pushed_nodup,
      untargeted_first_step before.untargeted_first moved, cleared_step first before.cleared moved,
      latest_step before.latest moved⟩

/-- A command for one client, cleared by the one for all that is popped next. -/
theorem cleared_and_popped :
    HistorySound [.push { clientId := some 5, data := .snapshot {} }, .push { data := .snapshot {} }, .pop]
      ⟨[], [⟨0, { clientId := some 5, data := .snapshot {} }⟩, ⟨1, { data := .snapshot {} }⟩],
        [⟨1, { data := .snapshot {} }⟩]⟩ := run_historySound rfl

end Stakan.CommandQueue
