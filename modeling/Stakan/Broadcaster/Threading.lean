import Stakan.Broadcaster.DeliveryOrder
import Stakan.Broadcaster.Shutdown

namespace Stakan

/-- The command that the worker has popped and not yet posted. -/
def Worker.held : Worker → Option CommandPtr
  | posting cmd => some cmd
  | _ => none

namespace Threads
open LabelledRun

/-- What an event is to the broadcaster. The owner's part and the turns of
the worker's loop are nothing to it. -/
def Event.work : Event → Option Broadcaster.Event
  | enqueue cmd => some (.enqueue cmd)
  | pop => some .pop
  | post => some .post
  | start | spawn | stop | join | joined | check => none

/-- The threads stand where the broadcaster stands. -/
structure CarriesOut (s : Threads) (b : Broadcaster) : Prop where
  defined : b.undefined = false
  trace : b.trace = s.trace
  held : b.held = s.worker.held
  posted : b.posted = s.posted

theorem CarriesOut.enqueue {s after : Threads} {b : Broadcaster} {cmd : BroadcastCommand} (carries : s.CarriesOut b)
    (moved : step s (.enqueue cmd) = some after) :
    ∃ next, b.step (.enqueue cmd) = some next ∧ after.CarriesOut next := by
  obtain ⟨pushed, worker, posted⟩ : CommandQueue.step s.trace (.push cmd) = some after.trace ∧
      after.worker = s.worker ∧ after.posted = s.posted := by
    obtain rfl := Option.some.inj moved
    exact ⟨rfl, rfl, rfl⟩
  refine ⟨{ b with trace := after.trace, standIn := b.standInAfter cmd }, ?_, carries.defined, rfl, ?_, ?_⟩
  · rw [Broadcaster.step_of_defined carries.defined, Broadcaster.perform, carries.trace, pushed]
    rfl
  · rw [worker]
    exact carries.held
  · rw [posted]
    exact carries.posted

theorem CarriesOut.pop {s after : Threads} {b : Broadcaster} (carries : s.CarriesOut b)
    (moved : step s .pop = some after) : ∃ next, b.step .pop = some next ∧ after.CarriesOut next := by
  simp only [step] at moved
  split at moved
  next popping =>
    obtain ⟨front, popped, moved⟩ := Option.bind_eq_some_iff.mp moved
    obtain ⟨trace, shorter, moved⟩ := Option.bind_eq_some_iff.mp moved
    obtain rfl := Option.some.inj moved
    have idle : b.held.isSome = false := by
      rw [carries.held, popping]
      rfl
    refine ⟨{ b with trace, held := some front.1 }, ?_, carries.defined, rfl, rfl, carries.posted⟩
    rw [Broadcaster.step_of_defined carries.defined, Broadcaster.perform, if_neg (by simp [idle]), carries.trace,
      popped, Option.bind_eq_bind, Option.bind_some]
    simp only [shorter]
    rfl
  next => contradiction

theorem CarriesOut.post {s after : Threads} {b : Broadcaster} (carries : s.CarriesOut b)
    (moved : step s .post = some after) : ∃ next, b.step .post = some next ∧ after.CarriesOut next := by
  simp only [step] at moved
  split at moved
  next cmd posting =>
    obtain rfl := Option.some.inj moved
    have held : b.held = some cmd := by
      rw [carries.held, posting]
      rfl
    refine ⟨{ b with held := none, posted := b.posted ++ [cmd] }, ?_, carries.defined, carries.trace, rfl, ?_⟩
    · rw [Broadcaster.step_of_defined carries.defined, Broadcaster.perform, held]
      rfl
    · rw [carries.posted]
  next => contradiction

/-- An event that is nothing to the broadcaster leaves the threads where it
stands: a worker is spawned where there was none, and looks at the flag with no command in hand. -/
theorem CarriesOut.silent {s after : Threads} {b : Broadcaster} {event : Event} (carries : s.CarriesOut b)
    (coherent : s.Coherent) (silent : event.work = none) (moved : step s event = some after) : after.CarriesOut b := by
  obtain ⟨defined, trace, held, posted⟩ := carries
  cases moves_of_step moved with
  | enqueue | pop | post => contradiction
  | start | startAgain | stop | stopAgain | join | joined => exact ⟨defined, trace, held, posted⟩
  | spawn starting =>
    rw [coherent.unspawned (.inr starting)] at held
    exact ⟨defined, trace, held, posted⟩
  | check checking =>
    rw [checking] at held
    refine ⟨defined, trace, held.trans ?_, posted⟩
    dsimp only
    split <;> rfl

/-- The commands go their way in the order in which they were enqueued. -/
structure KeepsOrder (s : Threads) : Prop where
  inOrder : ((s.posted ++ s.worker.held.toList ++ s.trace.queue).map CommandPtr.addr).Pairwise (· < ·)
  genuine : ∀ p ∈ s.posted ++ s.worker.held.toList ++ s.trace.queue, p ∈ s.trace.pushed

theorem CarriesOut.keepsOrder {s : Threads} {b : Broadcaster} (carries : s.CarriesOut b) (ordered : b.Ordered) :
    s.KeepsOrder := by
  have underWay := ordered.underWay
  have made := ordered.made
  simp only [Broadcaster.underWay, carries.posted, carries.held, carries.trace] at underWay made
  exact ⟨underWay, made⟩

theorem CarriesOut.run {events : List Event} {s last : Threads} {b : Broadcaster} (carries : s.CarriesOut b)
    (ordered : b.Ordered) (coherent : s.Coherent) (run : exec step s events = some last) :
    ∃ state, exec Broadcaster.step b (events.filterMap Event.work) = some state ∧ last.CarriesOut state ∧
      state.Ordered := by
  induction events generalizing s b with
  | nil =>
    obtain rfl := Option.some.inj run
    exact ⟨b, rfl, carries, ordered⟩
  | cons event events ih =>
    obtain ⟨after, moved, rest⟩ := exec_cons_split run
    have still := coherent.step moved
    cases event with
    | enqueue cmd =>
      obtain ⟨next, done, carries⟩ := carries.enqueue moved
      obtain ⟨state, ran, result⟩ := ih carries (ordered.enqueue done) still rest
      exact ⟨state, exec_cons_of done ran, result⟩
    | pop =>
      obtain ⟨next, done, carries⟩ := carries.pop moved
      obtain ⟨state, ran, result⟩ := ih carries (ordered.pop done) still rest
      exact ⟨state, exec_cons_of done ran, result⟩
    | post =>
      obtain ⟨next, done, carries⟩ := carries.post moved
      obtain ⟨state, ran, result⟩ := ih carries (ordered.post done) still rest
      exact ⟨state, exec_cons_of done ran, result⟩
    | start | spawn | stop | join | joined | check => exact ih (carries.silent coherent rfl moved) ordered still rest

/-- Whatever the owner does in between, what the producers and the worker do
is a run of the broadcaster, and commands are posted in the order in which
they were enqueued. -/
theorem run_refines (clients : ClientList) (events : List Event) (last : Threads)
    (run : exec step {} events = some last) :
    ∃ state, exec Broadcaster.step { clients } (events.filterMap Event.work) = some state ∧ last.CarriesOut state ∧
      last.KeepsOrder := by
  have initial : CarriesOut {} { clients } := ⟨rfl, rfl, rfl, rfl⟩
  obtain ⟨state, ran, carries, ordered⟩ :=
    initial.run (Broadcaster.ordered_initial clients) coherent_initial run
  exact ⟨state, ran, carries, carries.keepsOrder ordered⟩

/-- A command that comes after the worker has popped another one is left in the queue by `stop`. -/
def stoppedEarly : List Event :=
  [.start, .spawn, .enqueue ⟨some 5, .snapshot {}⟩, .check, .pop, .enqueue ⟨some 6, .snapshot {}⟩, .stop, .post, .join,
    .check, .joined]

theorem run_refines_stoppedEarly : ∃ last : Threads, exec step {} stoppedEarly = some last ∧
    last.caller = .finished ∧ last.posted.length = 1 ∧ last.trace.queue.length = 1 ∧
      ∃ state, exec Broadcaster.step { clients := {} } (stoppedEarly.filterMap Event.work) = some state ∧
        last.CarriesOut state ∧ last.KeepsOrder := by
  obtain ⟨last, ran, finished, posted, left⟩ : ∃ last, exec step {} stoppedEarly = some last ∧
      last.caller = .finished ∧ last.posted.length = 1 ∧ last.trace.queue.length = 1 := ⟨_, rfl, rfl, rfl, rfl⟩
  exact ⟨last, ran, finished, posted, left, run_refines {} stoppedEarly last ran⟩

end Threads

end Stakan
