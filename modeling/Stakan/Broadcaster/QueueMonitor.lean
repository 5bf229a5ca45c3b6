import Stakan.Broadcaster.CommandQueue
import Stakan.Library.ConditionVariable

namespace Stakan
open LockedObject

/-- An operation in one piece, with the command that it returns. On an empty queue a pop does not take place. -/
def CommandQueue.perform (op : QueueOp) (trace : Trace) : Option (Trace × Option CommandPtr × List Empty) :=
  (step trace op).map fun after => (after, match op with
    | .push _ => none
    | .pop => trace.queue.head?, [])

/-- The atomic queue is one that a history of operations leaves behind. -/
theorem CommandQueue.exec_of_atomic {ι : Type*} [DecidableEq ι] {labels : List (Label ι QueueOp)}
    {last : Atomic ι Trace QueueOp (Option CommandPtr)}
    {out : List (Output ι QueueOp (Option CommandPtr) Empty)}
    (ran : Transducer.run (Atomic.step perform) { memory := {} } labels = some (last, out)) :
    ∃ ops, LabelledRun.exec step {} ops = some last.memory := by
  have preserved : ∀ s (label : Label ι QueueOp) t (out : List (Output ι QueueOp (Option CommandPtr) Empty)),
      (∃ ops, LabelledRun.exec step {} ops = some s.memory) → True → Atomic.step perform s label = some (t, out) →
      ∃ ops, LabelledRun.exec step {} ops = some t.memory := by
    rintro s label t out ⟨ops, reached⟩ _ moved
    obtain ⟨op, answer, lines, performed, _⟩ | ⟨kept, _⟩ := Atomic.performed_of_step moved
    · obtain ⟨after, stepped, same⟩ := Option.map_eq_some_iff.mp performed
      obtain ⟨rfl, _⟩ := Prod.mk.inj same
      exact ⟨ops ++ [op], by rw [LabelledRun.exec_trans reached, LabelledRun.exec_cons, stepped]; rfl⟩
    · exact ⟨ops, kept ▸ reached⟩
  exact Transducer.run_invariant preserved ran (fun _ _ => trivial) ⟨[], rfl⟩

/-- Where a call of `push` or `pop` stands. The lock is taken on the way out
of `pushing`, `popping` and `waiting`, and given back in the test that fails
and at the end. -/
inductive QueuePoint
  | pushing (cmd : BroadcastCommand)
  | clearing (cmd : BroadcastCommand)
  | inserting (cmd : BroadcastCommand)
  | notifying
  | popping
  | testing
  | waiting
  | moving
  | removing (front : CommandPtr)
  | unlocking (result : Option CommandPtr)
  | left (result : Option CommandPtr)

namespace QueuePoint
open CommandQueue (Trace QueueOp)

def start : QueueOp → QueuePoint
  | .push cmd => pushing cmd
  | .pop => popping

def holds : QueuePoint → Hold
  | pushing _ | popping | waiting | left _ => .nothing
  | clearing _ | inserting _ | notifying | testing | moving | removing _ | unlocking _ => .exclusive

/-- `front` and `pop_front` are undefined on an empty queue. -/
def act : QueuePoint → Trace → Option (Trace × QueuePoint × List Empty)
  | pushing cmd, trace => some (trace, clearing cmd, [])
  | clearing cmd, trace =>
    some (if cmd.clientId = none then { trace with queue := [] } else trace, inserting cmd, [])
  | inserting cmd, trace => some ({
      trace with queue := trace.queue ++ [trace.next cmd], pushed := trace.pushed ++ [trace.next cmd] }, notifying, [])
  | notifying, trace => some (trace, unlocking none, [])
  | popping, trace | waiting, trace => some (trace, testing, [])
  | testing, trace => some (trace, if trace.queue.isEmpty then waiting else moving, [])
  | moving, trace => trace.queue.head?.map fun front => (trace, removing front, [])
  | removing front, trace => match trace.queue with
    | _ :: rest => some ({ trace with queue := rest, popped := trace.popped ++ [front] }, unlocking (some front), [])
    | [] => none
  | unlocking result, trace => some (trace, left result, [])
  | left _, _ => none

def answer : QueuePoint → Option (Option CommandPtr)
  | left result => some result
  | _ => none

/-- A call that has not taken effect, on a queue that was `c` when it took the lock and is `m` now. -/
def Stands (op : QueueOp) (c : Trace) : QueuePoint → Trace → Prop
  | pushing cmd, m | clearing cmd, m => op = .push cmd ∧ m = c
  | inserting cmd, m => op = .push cmd ∧ m = if cmd.clientId = none then { c with queue := [] } else c
  | popping, m | testing, m | waiting, m => op = .pop ∧ m = c
  | moving, m => op = .pop ∧ m = c ∧ c.queue ≠ []
  | removing front, m => op = .pop ∧ m = c ∧ c.queue.head? = some front
  | notifying, _ | unlocking _, _ | left _, _ => False

/-- A call that has taken effect. -/
def Settled (result : Option CommandPtr) : QueuePoint → Prop
  | notifying => result = none
  | unlocking result' | left result' => result' = result
  | _ => False

/-- A pop on its way from the wait or from its start to a command, or a push
about to notify: if it is awake, it looks after one command of the queue. -/
def looksAfter : QueuePoint → Bool
  | notifying | testing | waiting | moving | removing _ => true
  | _ => false

/-- How many steps a call takes from here at most. A notification has two
more in it, for the test of the caller that it wakes. -/
def steps : QueuePoint → Nat
  | left _ => 1
  | unlocking _ => 2
  | removing _ => 3
  | moving => 4
  | testing | notifying => 5
  | popping | waiting | inserting _ => 6
  | clearing _ => 7
  | pushing _ => 8

end QueuePoint

/-- The code of `push` and of `pop`. -/
def queueCode : Code CommandQueue.Trace CommandQueue.QueueOp QueuePoint (Option CommandPtr) Empty where
  start := QueuePoint.start
  holds := QueuePoint.holds
  act := QueuePoint.act
  answer := QueuePoint.answer

def queueSignals : Signals QueuePoint where
  waits
    | .waiting => true
    | _ => false
  notifies
    | .notifying => true
    | _ => false

namespace QueuePoint
open CommandQueue (Trace)

theorem act_removing {front : CommandPtr} {m : Trace} {next : Trace × QueuePoint × List Empty}
    (acted : (removing front).act m = some next) : ∃ taken rest, m.queue = taken :: rest ∧
      next = ({ m with queue := rest, popped := m.popped ++ [front] }, unlocking (some front), []) := by
  simp only [act] at acted
  split at acted
  next taken rest queue => exact ⟨taken, rest, queue, (Option.some.inj acted).symm⟩
  next => contradiction

/-- Only the test of an empty queue leads to the wait. -/
theorem waits_of_act {p : QueuePoint} {m : Trace} {next : Trace × QueuePoint × List Empty}
    (acted : p.act m = some next) (waits : queueSignals.waits next.2.1) :
    p = testing ∧ next.1.queue = [] := by
  cases p with
  | testing =>
    obtain rfl := Option.some.inj acted
    cases queue : m.queue with
    | nil => exact ⟨rfl, rfl⟩
    | cons front rest => simp [queue, queueSignals] at waits
  | moving =>
    obtain ⟨front, _, rfl⟩ := Option.map_eq_some_iff.mp acted
    contradiction
  | removing front =>
    obtain ⟨taken, rest, _, rfl⟩ := act_removing acted
    contradiction
  | left => contradiction
  | _ =>
    obtain rfl := Option.some.inj acted
    contradiction

theorem act_of_free {p : QueuePoint} {m : Trace} (free : p.holds = .nothing) (under : p.answer = none) :
    p.act m ≠ none := by
  cases p with
  | pushing | popping | waiting => exact Option.some_ne_none _
  | _ => contradiction

end QueuePoint

open QueuePoint in
/-- A push takes effect where it inserts its command, and a pop where it removes the front. -/
theorem queueCode_disciplined : Disciplined queueCode CommandQueue.perform Stands Settled where
  start_free op := by cases op <;> rfl
  start op c := by cases op <;> exact ⟨rfl, rfl⟩
  blind op p c free stands c' := by
    cases p with
    | pushing | popping | waiting => exact ⟨stands.1, rfl⟩
    | left => exact stands.elim
    | _ => contradiction
  unread p m next free acted m' := by
    cases p with
    | pushing | popping | waiting =>
      obtain rfl := Option.some.inj acted
      rfl
    | _ => contradiction
  unwritten p m next shared acted := by
    cases p with
    | pushing | popping | waiting =>
      obtain rfl := Option.some.inj acted
      rfl
    | left => contradiction
    | _ => exact absurd rfl shared
  acts op c p m next stands same acted := by
    cases p with
    | pushing cmd =>
      obtain ⟨rfl, rfl⟩ := stands
      obtain rfl := Option.some.inj acted
      exact .inl ⟨rfl, ⟨rfl, rfl⟩, fun _ => rfl⟩
    | clearing cmd =>
      obtain ⟨rfl, rfl⟩ := stands
      obtain rfl := Option.some.inj acted
      exact .inl ⟨rfl, ⟨rfl, rfl⟩, fun free => absurd rfl free⟩
    | inserting cmd =>
      obtain ⟨rfl, rfl⟩ := stands
      obtain rfl := Option.some.inj acted
      refine .inr ⟨none, ?_, rfl⟩
      by_cases all : cmd.clientId = none
      · simp [CommandQueue.perform, CommandQueue.step, CommandQueue.push, CommandQueue.Trace.next, all]
      · simp [CommandQueue.perform, CommandQueue.step, CommandQueue.push, CommandQueue.Trace.next, all]
    | popping | waiting =>
      obtain ⟨rfl, rfl⟩ := stands
      obtain rfl := Option.some.inj acted
      exact .inl ⟨rfl, ⟨rfl, rfl⟩, fun _ => rfl⟩
    | testing =>
      obtain ⟨rfl, rfl⟩ := stands
      obtain rfl := Option.some.inj acted
      cases queue : m.queue with
      | nil => exact .inl ⟨rfl, by simp [Stands], fun _ => rfl⟩
      | cons front rest => exact .inl ⟨rfl, by simp [Stands, queue], fun _ => rfl⟩
    | moving =>
      obtain ⟨rfl, rfl, _⟩ := stands
      obtain ⟨front, first, rfl⟩ := Option.map_eq_some_iff.mp acted
      exact .inl ⟨rfl, ⟨rfl, rfl, first⟩, fun _ => rfl⟩
    | removing front =>
      obtain ⟨rfl, rfl, first⟩ := stands
      obtain ⟨taken, rest, queue, rfl⟩ := act_removing acted
      rw [queue, List.head?_cons, Option.some.injEq] at first
      refine .inr ⟨some front, ?_, rfl⟩
      simp [CommandQueue.perform, CommandQueue.step, CommandQueue.pop, queue, first]
    | notifying | unlocking | left => exact stands.elim
  settles answer p m next settled acted := by
    cases p with
    | notifying =>
      obtain rfl := Option.some.inj acted
      exact ⟨rfl, rfl, settled.symm⟩
    | unlocking =>
      obtain rfl := Option.some.inj acted
      exact ⟨rfl, rfl, settled⟩
    | left => contradiction
    | _ => exact settled.elim
  unfinished op c p m stands := by
    cases p with
    | left => exact stands.elim
    | _ => rfl
  answers answer p answer' settled ended := by
    cases p with
    | left result => exact (Option.some.inj ended).symm.trans settled
    | _ => contradiction
  end_free p ended := by
    cases p with
    | left => rfl
    | _ => exact absurd rfl ended
  defined op c p m stands same := by
    cases p with
    | moving =>
      obtain ⟨_, rfl, nonempty⟩ := stands
      simpa [queueCode, act] using nonempty
    | removing front =>
      obtain ⟨_, rfl, first⟩ := stands
      obtain ⟨rest, queue⟩ := List.head?_eq_some_iff.mp first
      simp [queueCode, act, queue]
    | left => exact stands.elim
    | _ => exact Option.some_ne_none _
  settled_defined answer p m settled under := by
    cases p with
    | notifying | unlocking => exact Option.some_ne_none _
    | left => contradiction
    | _ => exact settled.elim
  no_upgrade p m next acted := by
    cases p with
    | pushing | popping | waiting => exact .inl rfl
    | left => contradiction
    | clearing | inserting | notifying | unlocking =>
      obtain rfl := Option.some.inj acted
      simp [queueCode, holds]
    | testing =>
      obtain rfl := Option.some.inj acted
      dsimp only
      split
      · exact .inr (.inl rfl)
      · exact .inr (.inr rfl)
    | moving =>
      obtain ⟨front, _, rfl⟩ := Option.map_eq_some_iff.mp acted
      exact .inr (.inr rfl)
    | removing front =>
      obtain ⟨taken, rest, _, rfl⟩ := act_removing acted
      exact .inr (.inr rfl)

open QueuePoint in
/-- A call waits on an empty queue only, and for each command more it goes to the notification. -/
theorem queueCode_wakes :
    Monitor.Wakes queueCode queueSignals (fun trace => trace.queue.length) (fun p => p.looksAfter.toNat) where
  parked p waits := by
    cases p with
    | waiting => exact ⟨rfl, rfl, rfl⟩
    | _ => contradiction
  apart p notifies := by
    cases p with
    | notifying => rfl
    | _ => contradiction
  ended p ended := by
    cases p with
    | left => rfl
    | _ => exact absurd rfl ended
  sleeps p m next acted waits := by
    obtain ⟨rfl, empty⟩ := waits_of_act acted waits
    exact ⟨rfl, List.length_eq_zero_iff.mpr empty⟩
  covered p m next acted stays := by
    cases p with
    | clearing cmd =>
      obtain rfl := Option.some.inj acted
      dsimp only
      split
      · simp [looksAfter]
      · simp [looksAfter]
    | testing =>
      obtain rfl := Option.some.inj acted
      cases queue : m.queue with
      | nil => simp [queue, queueSignals] at stays
      | cons front rest => simp [looksAfter]
    | moving =>
      obtain ⟨front, _, rfl⟩ := Option.map_eq_some_iff.mp acted
      simp [looksAfter]
    | removing front =>
      obtain ⟨taken, rest, queue, rfl⟩ := act_removing acted
      simp [queue, looksAfter]
    | left => contradiction
    | _ =>
      obtain rfl := Option.some.inj acted
      simp [looksAfter, queueSignals]

/-- The queue with its mutex and its condition variable, and the calls under way. -/
abbrev ThreadedQueue (ι : Type*) := Monitor ι CommandQueue.Trace QueuePoint

namespace ThreadedQueue

variable {ι : Type*} [DecidableEq ι]

theorem related_of_run {labels : List (Monitor.Label ι CommandQueue.QueueOp)} {last : ThreadedQueue ι}
    {out : List (Output ι CommandQueue.QueueOp (Option CommandPtr) Empty)}
    (ran : Transducer.run (Monitor.step queueCode queueSignals) { object := { memory := {} } } labels =
      some (last, out)) :
    ∃ labels' last', Transducer.run (Atomic.step CommandQueue.perform) { memory := {} } labels' = some (last', out) ∧
      Related queueCode QueuePoint.Stands QueuePoint.Settled last.object last' := by
  obtain ⟨middle, _, ran', rfl⟩ := (Monitor.simulates queueCode queueSignals).run ran rfl
  exact queueCode_disciplined.simulates.run ran' (related_start _ _ _ _)

theorem watched_of_run {labels : List (Monitor.Label ι CommandQueue.QueueOp)} {last : ThreadedQueue ι}
    {out : List (Output ι CommandQueue.QueueOp (Option CommandPtr) Empty)}
    (ran : Transducer.run (Monitor.step queueCode queueSignals) { object := { memory := {} } } labels =
      some (last, out)) :
    Monitor.Watched queueSignals (fun trace => trace.queue.length) (fun p => p.looksAfter.toNat) last :=
  Transducer.run_invariant (fun _ _ _ _ watched _ moved => watched.step queueCode_wakes moved) ran
    (fun _ _ => trivial) (Monitor.watched_start _ _ _ _)

/-- What the calls of any number of threads do to the queue, whoever is
notified and whoever wakes without it, pushes and pops in one piece do: they
return the same commands, no pop among them is performed on an empty queue,
and whenever nobody holds the mutex the queue is the same. No call comes to a
step that is undefined. -/
theorem queueCalls_linearizable (labels : List (Monitor.Label ι CommandQueue.QueueOp)) (last : ThreadedQueue ι)
    (out : List (Output ι CommandQueue.QueueOp (Option CommandPtr) Empty))
    (ran : Transducer.run (Monitor.step queueCode queueSignals) { object := { memory := {} } } labels =
      some (last, out)) :
    ∃ labels' last' ops,
      Transducer.run (Atomic.step CommandQueue.perform) { memory := {} } labels' = some (last', out) ∧
      LabelledRun.exec CommandQueue.step {} ops = some last'.memory ∧
      ((∀ i, held queueCode last.object.calls i ≠ .exclusive) → last.object.memory = last'.memory) ∧
      ∀ i p, last.object.calls i = some p → p.answer = none → p.act last.object.memory ≠ none := by
  obtain ⟨labels', last', matched, related⟩ := related_of_run ran
  obtain ⟨ops, reached⟩ := CommandQueue.exec_of_atomic matched
  refine ⟨labels', last', ops, matched, reached, related.memory_of_free, fun i p standing under => ?_⟩
  by_cases free : p.holds = .nothing
  · exact QueuePoint.act_of_free free under
  · exact related.defined queueCode_disciplined standing under (absurd · free)

/-- A pop goes to sleep before a push, is notified, and takes the command. -/
def sleepsAndTakes : List (Monitor.Label Bool CommandQueue.QueueOp) :=
  [.invoke true .pop, .act true, .act true, .invoke false (.push { data := .snapshot {} }), .act false, .act false,
    .act false, .notify false (some true), .act false, .finish false, .act true, .act true, .act true, .act true,
    .act true, .finish true]

theorem queueCalls_linearizable_sleepsAndTakes : ∃ last out,
    Transducer.run (Monitor.step queueCode queueSignals) { object := { memory := {} } } sleepsAndTakes =
      some (last, out) ∧
    ∃ labels' last' ops,
      Transducer.run (Atomic.step CommandQueue.perform) { memory := {} } labels' = some (last', out) ∧
      LabelledRun.exec CommandQueue.step {} ops = some last'.memory ∧
      ((∀ i, held queueCode last.object.calls i ≠ .exclusive) → last.object.memory = last'.memory) ∧
      ∀ i p, last.object.calls i = some p → p.answer = none → p.act last.object.memory ≠ none :=
  ⟨_, _, rfl, queueCalls_linearizable sleepsAndTakes _ _ rfl⟩

/-- No wakeup is lost, with however many consumers: while a pop sleeps, for
each command in the queue there is another caller awake that will take one
or notify somebody. -/
theorem no_wakeup_lost (labels : List (Monitor.Label ι CommandQueue.QueueOp)) (last : ThreadedQueue ι)
    (out : List (Output ι CommandQueue.QueueOp (Option CommandPtr) Empty))
    (ran : Transducer.run (Monitor.step queueCode queueSignals) { object := { memory := {} } } labels =
      some (last, out)) :
    last.asleep = [] ∨ ∃ awake : Finset ι, last.object.memory.queue.length ≤ awake.card ∧
      ∀ i ∈ awake, i ∉ last.asleep ∧ ∃ p, last.object.calls i = some p ∧ p.looksAfter := by
  refine (watched_of_run ran).covered.imp_right fun ⟨awake, apart, bound⟩ => ?_
  refine ⟨awake.filter fun i => (last.object.calls i).any QueuePoint.looksAfter, ?_, fun i member => ?_⟩
  · rw [Finset.card_filter]
    refine bound.trans (Finset.sum_le_sum fun i _ => ?_)
    cases standing : last.object.calls i with
    | none => simp [Monitor.cover, standing]
    | some p => cases p <;> simp [Monitor.cover, standing, QueuePoint.looksAfter]
  · obtain ⟨within, coming⟩ := Finset.mem_filter.mp member
    exact ⟨apart i within, (Option.any_eq_true _ _).mp coming⟩

/-- The command is in the queue, the pop still sleeps, and the push is about to notify. -/
theorem no_wakeup_lost_sleepsAndTakes : ∃ last out,
    Transducer.run (Monitor.step queueCode queueSignals) { object := { memory := {} } } (sleepsAndTakes.take 7) =
      some (last, out) ∧
    last.asleep = [true] ∧ last.object.memory.queue.length = 1 ∧
    (last.asleep = [] ∨ ∃ awake : Finset Bool, last.object.memory.queue.length ≤ awake.card ∧
      ∀ i ∈ awake, i ∉ last.asleep ∧ ∃ p, last.object.calls i = some p ∧ p.looksAfter) :=
  ⟨_, _, rfl, rfl, rfl, no_wakeup_lost (sleepsAndTakes.take 7) _ _ rfl⟩

end ThreadedQueue

end Stakan
