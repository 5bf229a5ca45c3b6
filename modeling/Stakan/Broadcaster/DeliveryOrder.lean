import Stakan.Broadcaster.Basic
import Stakan.ClientList.Broadcast

namespace Stakan.Broadcaster
open LabelledRun

/-- The commands on their way, those nearest to the sessions first. -/
def underWay (state : Broadcaster) : List CommandPtr := state.posted ++ state.held.toList ++ state.trace.queue

/-- The io_context runs the posted handlers in the order in which they were posted. -/
def FirstPosted (_ : Broadcaster) : Event → Prop
  | .execute i => i = 0
  | _ => True

/-- The call hands on the snapshot of its command. -/
def Delivery.Faithful (delivery : Delivery) : Prop :=
  ∃ session snapshot, delivery.call = .sendMsg session snapshot.serialize ∧
    delivery.origin.cmd.data = .snapshot snapshot

/-- Commands reach the sessions in the order in which they were pushed. -/
structure Ordered (state : Broadcaster) : Prop where
  inOrder : CommandQueue.InOrder state.trace
  delivered : (state.delivered.map fun d => d.origin.addr).Pairwise (· ≤ ·)
  underWay : (state.underWay.map CommandPtr.addr).Pairwise (· < ·)
  past : ∀ d ∈ state.delivered, ∀ p ∈ state.underWay, d.origin.addr < p.addr
  made : ∀ p ∈ state.underWay, p ∈ state.trace.pushed
  origins : ∀ d ∈ state.delivered, d.origin ∈ state.trace.pushed ∧ Delivery.Faithful d

theorem ordered_initial (clients : ClientList) : Ordered { clients } where
  inOrder := CommandQueue.inOrder_empty
  delivered := .nil
  underWay := .nil
  past d member := by simp at member
  made p member := by simp [Broadcaster.underWay] at member
  origins d member := by simp at member

/-- A handler that returns has sent the snapshot of its command and nothing else. -/
theorem handler_faithful {cmd : CommandPtr} {clients : ClientList} {calls : List SessionCall}
    (handled : handler cmd.cmd clients = .ok calls) (call : SessionCall) (member : call ∈ calls) :
    Delivery.Faithful ⟨cmd, call⟩ := by
  obtain ⟨addr, clientId, data⟩ := cmd
  cases data with
  | mdUpdate update => contradiction
  | snapshot snapshot =>
    cases clientId with
    | none =>
      obtain ⟨session, _, rfl⟩ := ClientList.mapM_send handled call member
      exact ⟨session, snapshot, rfl, rfl⟩
    | some id =>
      have sent : clients.broadcastToCertain id snapshot.serialize = .ok calls := handled
      obtain ⟨session, _, rfl⟩ := ClientList.broadcastToCertain_ok sent
      obtain rfl := List.mem_singleton.mp member
      exact ⟨session, snapshot, rfl, rfl⟩

variable {state after : Broadcaster}

theorem Ordered.enqueue (ordered : state.Ordered) {cmd : BroadcastCommand}
    (moved : step state (.enqueue cmd) = some after) : after.Ordered := by
  have pushed : CommandQueue.step state.trace (.push cmd) = some _ := rfl
  have inOrder := ordered.inOrder.step pushed
  obtain rfl := step_enqueue moved
  have older : ∀ p ∈ state.trace.pushed, p.addr < (state.trace.next cmd).addr := fun p => ordered.inOrder.addr_lt
  -- what is left on its way, before the new command
  obtain ⟨kept, part, whole⟩ : ∃ kept, kept.Sublist state.underWay ∧ state.posted ++ state.held.toList ++
      CommandQueue.push (state.trace.next cmd) state.trace.queue = kept ++ [state.trace.next cmd] := by
    by_cases untargeted : cmd.clientId = none
    · refine ⟨state.posted ++ state.held.toList, List.sublist_append_left _ _, ?_⟩
      rw [CommandQueue.push_untargeted (p := state.trace.next cmd) untargeted]
    · refine ⟨state.underWay, List.Sublist.refl _, ?_⟩
      rw [CommandQueue.push_targeted (p := state.trace.next cmd) untargeted, ← List.append_assoc]
      rfl
  refine ⟨inOrder, ordered.delivered, ?_, fun d past p member => ?_, fun p member => ?_, fun d past => ?_⟩
  · rw [Broadcaster.underWay, whole, List.map_append]
    refine List.pairwise_append.mpr ⟨ordered.underWay.sublist (part.map _), List.pairwise_singleton _ _, ?_⟩
    intro addr before last atLast
    obtain ⟨p, inside, rfl⟩ := List.mem_map.mp before
    obtain rfl := List.mem_singleton.mp atLast
    exact older p (ordered.made p (part.subset inside))
  · rw [Broadcaster.underWay, whole] at member
    rcases List.mem_append.mp member with inside | atEnd
    · exact ordered.past d past p (part.subset inside)
    · obtain rfl := List.mem_singleton.mp atEnd
      exact older _ (ordered.origins d past).1
  · rw [Broadcaster.underWay, whole] at member
    exact List.mem_append.mpr ((List.mem_append.mp member).imp_left fun inside => ordered.made p (part.subset inside))
  · exact ⟨List.mem_append_left _ (ordered.origins d past).1, (ordered.origins d past).2⟩

/-- What is on its way stays there in the same order when the worker takes or posts a command. -/
theorem Ordered.of_underWay (ordered : state.Ordered) (inOrder : CommandQueue.InOrder after.trace)
    (same : after.underWay = state.underWay) (pushed : after.trace.pushed = state.trace.pushed)
    (delivered : after.delivered = state.delivered) : after.Ordered := by
  refine ⟨inOrder, ?_, ?_, ?_, ?_, ?_⟩
  · rw [delivered]; exact ordered.delivered
  · rw [same]; exact ordered.underWay
  · rw [delivered, same]; exact ordered.past
  · rw [pushed, same]; exact ordered.made
  · rw [delivered, pushed]; exact ordered.origins

theorem Ordered.pop (ordered : state.Ordered) (moved : step state .pop = some after) : after.Ordered := by
  obtain ⟨front, rest, idle, queue, rfl⟩ := step_pop moved
  have popped : CommandQueue.step state.trace .pop =
      some { state.trace with queue := rest, popped := state.trace.popped ++ [front] } := by
    simp [CommandQueue.step, CommandQueue.pop, queue]
  refine ordered.of_underWay (ordered.inOrder.step popped) ?_ rfl rfl
  simp [Broadcaster.underWay, idle, queue]

theorem Ordered.post (ordered : state.Ordered) (moved : step state .post = some after) : after.Ordered := by
  obtain ⟨cmd, held, rfl⟩ := step_post moved
  refine ordered.of_underWay ordered.inOrder ?_ rfl rfl
  simp [Broadcaster.underWay, held]

theorem Ordered.execute (ordered : state.Ordered) (moved : step state (.execute 0) = some after) : after.Ordered := by
  obtain ⟨cmd, at_0, ended⟩ := step_execute moved
  obtain ⟨rest, posted⟩ : ∃ rest, state.posted = cmd :: rest := by
    cases posted : state.posted with
    | nil => simp [posted] at at_0
    | cons first rest => exact ⟨rest, by simpa [posted] using at_0⟩
  have front : state.underWay = cmd :: (rest ++ state.held.toList ++ state.trace.queue) := by
    simp [Broadcaster.underWay, posted]
  have sorted := ordered.underWay
  rw [front, List.map_cons, List.pairwise_cons] at sorted
  have later : ∀ p ∈ rest ++ state.held.toList ++ state.trace.queue, p ∈ state.underWay := fun p member => by
    rw [front]
    exact List.mem_cons_of_mem _ member
  have here : cmd ∈ state.underWay := by
    rw [front]
    exact List.mem_cons_self
  have erased : state.posted.eraseIdx 0 = rest := by rw [posted]; rfl
  obtain ⟨calls, handled, rfl⟩ | ⟨failure, _, _, rfl⟩ | ⟨_, rfl⟩ := ended
  · have faithful := handler_faithful handled
    refine ⟨ordered.inOrder, ?_, ?_, fun d member p ahead => ?_, fun p member => ?_, fun d member => ?_⟩
    · rw [List.map_append, List.pairwise_append]
      refine ⟨ordered.delivered, ?_, fun addr before last after => ?_⟩
      · simp [List.map_map, Function.comp_def]
      · obtain ⟨d, past, rfl⟩ := List.mem_map.mp before
        simp only [List.map_map, List.mem_map, Function.comp_apply] at after
        obtain ⟨call, _, rfl⟩ := after
        exact (ordered.past d past cmd here).le
    · simp only [Broadcaster.underWay, erased]
      exact sorted.2
    · simp only [Broadcaster.underWay, erased] at ahead
      rcases List.mem_append.mp member with past | new
      · exact ordered.past d past p (later p ahead)
      · obtain ⟨call, _, rfl⟩ := List.mem_map.mp new
        exact sorted.1 p.addr (List.mem_map_of_mem ahead)
    · simp only [Broadcaster.underWay, erased] at member
      exact ordered.made p (later p member)
    · rcases List.mem_append.mp member with past | new
      · exact ordered.origins d past
      · obtain ⟨call, made, rfl⟩ := List.mem_map.mp new
        exact ⟨ordered.made cmd here, faithful call made⟩
  · refine ⟨ordered.inOrder, ordered.delivered, ?_, fun d past p ahead => ?_, fun p member => ?_, ordered.origins⟩
    · simp only [Broadcaster.underWay, erased]
      exact sorted.2
    · simp only [Broadcaster.underWay, erased] at ahead
      exact ordered.past d past p (later p ahead)
    · simp only [Broadcaster.underWay, erased] at member
      exact ordered.made p (later p member)
  · exact ordered.of_underWay ordered.inOrder rfl rfl rfl

theorem Ordered.step {event : Event} (ordered : state.Ordered) (first : FirstPosted state event)
    (moved : Broadcaster.step state event = some after) : after.Ordered := by
  cases event with
  | enqueue cmd => exact ordered.enqueue moved
  | pop => exact ordered.pop moved
  | post => exact ordered.post moved
  | execute i =>
    obtain rfl : i = 0 := first
    exact ordered.execute moved
  | clientCall op =>
    obtain ⟨clients, _, rfl⟩ := step_clientCall moved
    exact ordered.of_underWay ordered.inOrder rfl rfl rfl

end Stakan.Broadcaster
