import Stakan.Broadcaster.CommandQueue
import Stakan.Library.History

namespace Stakan

/-- Where the worker is in `run`. -/
inductive Worker
  | absent
  | checking
  | popping
  | posting (cmd : CommandPtr)
  | exited

/-- Where the thread that starts and stops the broadcaster is. -/
inductive Caller
  | idle
  | starting
  | started
  | stopping
  | joining
  | finished
  deriving DecidableEq

/-- The broadcaster with its worker thread and the thread that owns it. -/
structure Threads where
  running : Bool := false
  trace : CommandQueue.Trace := {}
  posted : List CommandPtr := []
  worker : Worker := .absent
  caller : Caller := .idle

namespace Threads
open LabelledRun History

/-- A producer enqueues, the owner goes on in `start` or `stop`, or the
worker in `run`. Every event is one access to what the threads share. -/
inductive Event
  | enqueue (cmd : BroadcastCommand)
  | start
  | spawn
  | stop
  | join
  | joined
  | check
  | pop
  | post

def step (s : Threads) : Event → Option Threads
  | .enqueue cmd => do
    let trace ← CommandQueue.step s.trace (.push cmd)
    return { s with trace }
  | .start =>
    if s.caller = .idle then
      some (if s.running then { s with caller := .started } else { s with running := true, caller := .starting })
    else none
  | .spawn => if s.caller = .starting then some { s with worker := .checking, caller := .started } else none
  | .stop =>
    if s.caller = .started then
      some (if s.running then { s with running := false, caller := .stopping } else { s with caller := .finished })
    else none
  | .join => if s.caller = .stopping then some { s with caller := .joining } else none
  | .joined => match s.caller, s.worker with
    | .joining, .exited => some { s with caller := .finished }
    | _, _ => none
  | .check => match s.worker with
    | .checking => some { s with worker := if s.running then .popping else .exited }
    | _ => none
  | .pop => match s.worker with
    | .popping => do
      let (cmd, _) ← CommandQueue.pop s.trace.queue
      let trace ← CommandQueue.step s.trace .pop
      return { s with trace, worker := .posting cmd }
    | _ => none
  | .post => match s.worker with
    | .posting cmd => some { s with posted := s.posted ++ [cmd], worker := .checking }
    | _ => none

/-- What an event can do, with the conditions under which it can happen. -/
inductive Moves (s : Threads) : Event → Threads → Prop
  | enqueue (cmd : BroadcastCommand) (trace : CommandQueue.Trace) : trace.queue ≠ [] →
      Moves s (.enqueue cmd) { s with trace }
  | startAgain : s.caller = .idle → s.running = true → Moves s .start { s with caller := .started }
  | start : s.caller = .idle → s.running = false → Moves s .start { s with running := true, caller := .starting }
  | spawn : s.caller = .starting → Moves s .spawn { s with worker := .checking, caller := .started }
  | stopAgain : s.caller = .started → s.running = false → Moves s .stop { s with caller := .finished }
  | stop : s.caller = .started → s.running = true → Moves s .stop { s with running := false, caller := .stopping }
  | join : s.caller = .stopping → Moves s .join { s with caller := .joining }
  | joined : s.caller = .joining → s.worker = .exited → Moves s .joined { s with caller := .finished }
  | check : s.worker = .checking → Moves s .check { s with worker := if s.running then .popping else .exited }
  | pop (cmd : CommandPtr) (trace : CommandQueue.Trace) : s.worker = .popping → s.trace.queue ≠ [] →
      Moves s .pop { s with trace, worker := .posting cmd }
  | post (cmd : CommandPtr) : s.worker = .posting cmd →
      Moves s .post { s with posted := s.posted ++ [cmd], worker := .checking }

theorem moves_of_step {s after : Threads} {event : Event} (moved : step s event = some after) :
    Moves s event after := by
  cases event <;> simp only [step] at moved
  case enqueue cmd =>
    obtain rfl := Option.some.inj moved
    exact .enqueue cmd _ (List.append_ne_nil_of_right_ne_nil _ (List.cons_ne_nil _ _))
  case start =>
    split at moved
    next idle =>
      obtain rfl := Option.some.inj moved
      split
      next running => exact .startAgain idle running
      next quiet => exact .start idle (by simpa using quiet)
    next => contradiction
  case spawn =>
    split at moved
    next starting => exact Option.some.inj moved ▸ .spawn starting
    next => contradiction
  case stop =>
    split at moved
    next started =>
      obtain rfl := Option.some.inj moved
      split
      next running => exact .stop started running
      next quiet => exact .stopAgain started (by simpa using quiet)
    next => contradiction
  case join =>
    split at moved
    next stopping => exact Option.some.inj moved ▸ .join stopping
    next => contradiction
  case joined =>
    split at moved
    next joining exited => exact Option.some.inj moved ▸ .joined joining exited
    next => contradiction
  case check =>
    split at moved
    next checking => exact Option.some.inj moved ▸ .check checking
    next => contradiction
  case pop =>
    split at moved
    next popping =>
      cases queue : s.trace.queue with
      | nil => simp [queue, CommandQueue.pop] at moved
      | cons front rest =>
        simp only [queue, CommandQueue.pop, CommandQueue.step] at moved
        obtain rfl := Option.some.inj moved
        exact .pop front _ popping (by rw [queue]; exact List.cons_ne_nil _ _)
    next => contradiction
  case post =>
    split at moved
    next cmd posting => exact Option.some.inj moved ▸ .post cmd posting
    next => contradiction

/-- The worker waits for a command. -/
def Waiting (s : Threads) : Prop := s.worker = .popping ∧ s.trace.queue = []

/-- The owner waits for the worker, which waits for a command. -/
def Deadlocked (s : Threads) : Prop := s.caller = .joining ∧ s.Waiting

/-- The flag was cleared with the worker waiting for a command, and none has come since. -/
def StopsInVain : List Event → Prop :=
  Since (fun before event => event = .stop ∧ ∃ s, exec step {} before = some s ∧ s.Waiting)
    fun event => ∀ cmd, event ≠ .enqueue cmd

theorem stopsInVain_snoc {events : List Event} {event : Event} : StopsInVain (events ++ [event]) ↔
    (event = .stop ∧ ∃ s, exec step {} events = some s ∧ s.Waiting) ∨
      (∀ cmd, event ≠ .enqueue cmd) ∧ StopsInVain events := since_snoc

/-- The worker is there once it has been spawned, and the flag is clear while it is waited for. -/
structure Coherent (s : Threads) : Prop where
  unspawned : s.caller = .idle ∨ s.caller = .starting → s.worker = .absent
  cleared : s.caller = .stopping ∨ s.caller = .joining → s.running = false

theorem Coherent.step {s after : Threads} {event : Event} (coherent : s.Coherent)
    (moved : step s event = some after) : after.Coherent := by
  obtain ⟨unspawned, cleared⟩ := coherent
  cases moves_of_step moved with
  | enqueue => exact ⟨unspawned, cleared⟩
  | start idle => exact ⟨fun _ => unspawned (Or.inl idle), by simp⟩
  | startAgain | spawn | stopAgain | joined => exact ⟨by simp, by simp⟩
  | stop => exact ⟨by simp, fun _ => rfl⟩
  | join stopping => exact ⟨by simp, fun _ => cleared (Or.inl stopping)⟩
  | check worker | pop _ _ worker | post _ worker =>
    refine ⟨fun early => ?_, cleared⟩
    rw [unspawned early] at worker
    contradiction

theorem coherent_initial : Coherent {} := ⟨fun _ => rfl, by simp⟩

theorem exec_coherent {events : List Event} {s : Threads} (run : exec step {} events = some s) : s.Coherent :=
  exec_invariant (fun _ _ _ coherent moved => Coherent.step coherent moved) run coherent_initial

/-- Nothing but a command ends the waiting. -/
theorem Waiting.step {s after : Threads} {event : Event} (waiting : s.Waiting) (coherent : s.Coherent)
    (none_comes : ∀ cmd, event ≠ .enqueue cmd) (moved : step s event = some after) : after.Waiting := by
  obtain ⟨popping, queue⟩ := waiting
  cases moves_of_step moved with
  | enqueue cmd => exact absurd rfl (none_comes cmd)
  | start | startAgain | stop | stopAgain | join | joined => exact ⟨popping, queue⟩
  | spawn starting =>
    rw [coherent.unspawned (Or.inr starting)] at popping
    contradiction
  | check worker | post _ worker =>
    rw [worker] at popping
    contradiction
  | pop cmd trace worker nonempty => exact absurd queue nonempty

theorem waiting_of_stopsInVain {events : List Event} {s : Threads} (run : exec step {} events = some s)
    (vain : StopsInVain events) : s.Waiting := by
  induction events using List.reverseRecOn generalizing s with
  | nil => exact absurd vain (not_since_nil _ _)
  | append_singleton events event ih =>
    obtain ⟨former, first, moved⟩ := exec_snoc_split run
    rcases stopsInVain_snoc.mp vain with ⟨rfl, t, same, waiting⟩ | ⟨none_comes, earlier⟩
    · obtain rfl := Option.some.inj (first.symm.trans same)
      exact waiting.step (exec_coherent first) (by simp) moved
    · exact (ih first earlier).step (exec_coherent first) none_comes moved

/-- While its end is awaited, a worker that waits for a command has been waiting before. -/
theorem waiting_before {s after : Threads} {event : Event} (coherent : s.Coherent)
    (moved : step s event = some after) (stopped : after.caller = .stopping ∨ after.caller = .joining)
    (waiting : after.Waiting) :
    s.Waiting ∧ (event = .stop ∧ after.caller = .stopping ∨ event = .join ∧ s.caller = .stopping) := by
  obtain ⟨popping, queue⟩ := waiting
  cases moves_of_step moved with
  | stop started => exact ⟨⟨popping, queue⟩, Or.inl ⟨rfl, rfl⟩⟩
  | join stopping => exact ⟨⟨popping, queue⟩, Or.inr ⟨rfl, stopping⟩⟩
  | check worker =>
    have clear := coherent.cleared stopped
    simp [clear] at popping
  | enqueue cmd trace nonempty => exact absurd queue nonempty
  | start | startAgain | spawn | stopAgain | joined => simp at stopped
  | pop | post => contradiction

/-- A worker that waits for a command while its end is awaited has done so
since the flag was cleared. -/
theorem stopsInVain_of_waiting {events : List Event} {s : Threads} (run : exec step {} events = some s)
    (stopped : s.caller = .stopping ∨ s.caller = .joining) (waiting : s.Waiting) : StopsInVain events := by
  induction events using List.reverseRecOn generalizing s with
  | nil =>
    obtain rfl := Option.some.inj run
    simp at stopped
  | append_singleton events event ih =>
    obtain ⟨former, first, moved⟩ := exec_snoc_split run
    obtain ⟨earlier, ⟨rfl, _⟩ | ⟨rfl, stopping⟩⟩ := waiting_before (exec_coherent first) moved stopped waiting
    · exact stopsInVain_snoc.mpr (Or.inl ⟨rfl, former, first, earlier⟩)
    · exact stopsInVain_snoc.mpr (Or.inr ⟨by simp, ih first (Or.inl stopping) earlier⟩)

/-- How the two come to wait for each other: at the join, with nothing enqueued since the stop. -/
theorem join_of_deadlocked {events : List Event} {s : Threads} (run : exec step {} events = some s)
    (deadlocked : s.Deadlocked) : ∃ before, events = before ++ [.join] ∧ StopsInVain before := by
  obtain ⟨joining, waiting⟩ := deadlocked
  cases events using List.reverseRecOn with
  | nil =>
    obtain rfl := Option.some.inj run
    contradiction
  | append_singleton events event =>
    obtain ⟨former, first, moved⟩ := exec_snoc_split run
    obtain ⟨earlier, ⟨_, stopping⟩ | ⟨rfl, stopping⟩⟩ :=
      waiting_before (exec_coherent first) moved (Or.inr joining) waiting
    · rw [joining] at stopping
      contradiction
    · exact ⟨events, rfl, stopsInVain_of_waiting first (Or.inl stopping) earlier⟩

/-- The shutdown deadlocks in no state of a run exactly if no join follows a
stop that the worker, which waits for a command, cannot notice. -/
theorem never_deadlocked_iff (events : List Event) (last : Threads) (run : exec step {} events = some last) :
    Always step (fun s => ¬s.Deadlocked) {} events ↔
      ∀ before after, events = before ++ .join :: after → ¬StopsInVain before := by
  constructor
  · intro always before after split vain
    subst split
    rw [exec_append] at run
    obtain ⟨s, first, rest⟩ := Option.bind_eq_some_iff.mp run
    obtain ⟨t, moved, _⟩ := exec_cons_split rest
    have waiting := waiting_of_stopsInVain first vain
    have deadlocked : t.Deadlocked := by
      refine ⟨?_, waiting.step (exec_coherent first) (by simp) moved⟩
      cases moves_of_step moved
      rfl
    exact always.next first moved deadlocked
  · intro noticed before after s split first deadlocked
    obtain ⟨upTo, rfl, vain⟩ := join_of_deadlocked first deadlocked
    exact noticed upTo after (by rw [split]; simp) vain

/-- Started and stopped with no command in between: `stop` never returns. -/
theorem idle_broadcaster_deadlocks : ¬∀ events last, exec step {} events = some last → ¬last.Deadlocked := by
  intro claim
  have never := claim [.start, .spawn, .check, .stop, .join] _ rfl
  exact never ⟨rfl, rfl, rfl⟩

/-- A worker that has not come to wait sees the flag and ends. -/
theorem early_stop_returns : ∃ last : Threads, last.caller = .finished ∧
    Always step (fun s => ¬s.Deadlocked) {} [.start, .spawn, .stop, .join, .check, .joined] := by
  let events : List Event := [.start, .spawn, .stop, .join, .check, .joined]
  obtain ⟨last, run, finished⟩ : ∃ last, exec step {} events = some last ∧ last.caller = .finished := ⟨_, rfl, rfl⟩
  refine ⟨last, finished, (never_deadlocked_iff events last run).mpr fun before after split vain => ?_⟩
  have same : before = [.start, .spawn, .stop] := by
    rcases before with _ | ⟨_, _ | ⟨_, _ | ⟨_, _ | ⟨_, before⟩⟩⟩⟩ <;> simp [events] at split
    · simp [split]
    · have member : Event.join ∈ [Event.check, .joined] := by rw [split.2.2.2.2]; simp
      simp at member
  subst same
  have waiting := waiting_of_stopsInVain rfl vain
  exact absurd waiting.1 (by simp)

end Threads

end Stakan
