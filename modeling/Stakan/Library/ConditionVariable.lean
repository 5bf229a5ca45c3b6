import Mathlib.Algebra.BigOperators.Group.Finset.Piecewise
import Mathlib.Algebra.Order.BigOperators.Group.Finset
import Stakan.Library.LockedObject

namespace LockedObject

/-- Where the code of an object waits on its condition variable, and where it notifies one of those that wait. -/
structure Signals (P : Type*) where
  waits : P → Bool
  notifies : P → Bool

/-- An object with its lock, and the callers that are asleep on its condition variable. -/
structure Monitor (ι μ P : Type*) where
  object : State ι μ P
  asleep : List ι := []

namespace Monitor

/-- Notifying wakes one of those asleep, whichever; one may also wake without being notified. -/
inductive Label (ι Op : Type*)
  | invoke (caller : ι) (op : Op)
  | act (caller : ι)
  | notify (caller : ι) (woken : Option ι)
  | wake (caller : ι)
  | finish (caller : ι)

variable {ι μ Op P ρ γ : Type*} [DecidableEq ι]

/-- The steps of a call under way that is awake. -/
def Label.onward {ι Op : Type*} : Label ι Op → Bool
  | .act _ | .notify _ _ | .finish _ => true
  | .invoke _ _ | .wake _ => false

/-- Somebody is woken if somebody is asleep. -/
def Chosen (asleep : List ι) : Option ι → Prop
  | some i => i ∈ asleep
  | none => asleep = []

instance (asleep : List ι) (woken : Option ι) : Decidable (Chosen asleep woken) :=
  match woken with
  | some i => inferInstanceAs (Decidable (i ∈ asleep))
  | none => inferInstanceAs (Decidable (asleep = []))

/-- A caller goes to sleep in the step that gives the lock back, and takes it again when it is awake. -/
def step (code : Code μ Op P ρ γ) (signals : Signals P) (s : Monitor ι μ P) :
    Label ι Op → Option (Monitor ι μ P × List (Output ι Op ρ γ))
  | .invoke i op =>
    (LockedObject.step code s.object (.invoke i op)).map fun next => ({ s with object := next.1 }, next.2)
  | .act i =>
    if i ∈ s.asleep ∨ (s.object.calls i).any signals.notifies then none
    else (LockedObject.step code s.object (.act i)).map fun next =>
      (⟨next.1, if (next.1.calls i).any signals.waits then i :: s.asleep else s.asleep⟩, next.2)
  | .notify i woken =>
    if (s.object.calls i).any signals.notifies ∧ Chosen s.asleep woken then
      (LockedObject.step code s.object (.act i)).map fun next =>
        (⟨next.1, woken.elim s.asleep fun j => s.asleep.erase j⟩, next.2)
    else none
  | .wake i => if i ∈ s.asleep then some ({ s with asleep := s.asleep.erase i }, []) else none
  | .finish i =>
    (LockedObject.step code s.object (.finish i)).map fun next => ({ s with object := next.1 }, next.2)

section Simulation

variable {code : Code μ Op P ρ γ} {signals : Signals P} {s t : Monitor ι μ P} {label : Label ι Op}
  {out : List (Output ι Op ρ γ)}

/-- What a step is to the object: nothing, or a step of its own. -/
theorem object_step (moved : step code signals s label = some (t, out)) :
    (∃ i, label = .wake i ∧ i ∈ s.asleep ∧ t = { s with asleep := s.asleep.erase i } ∧ out = []) ∨
      (∃ i op, label = .invoke i op ∧ LockedObject.step code s.object (.invoke i op) = some (t.object, out) ∧
        t.asleep = s.asleep) ∨
      (∃ i, label = .finish i ∧ LockedObject.step code s.object (.finish i) = some (t.object, out) ∧
        t.asleep = s.asleep) ∨
      (∃ i, label = .act i ∧ i ∉ s.asleep ∧ (s.object.calls i).any signals.notifies = false ∧
        LockedObject.step code s.object (.act i) = some (t.object, out) ∧
        t.asleep = if (t.object.calls i).any signals.waits then i :: s.asleep else s.asleep) ∨
      ∃ i woken, label = .notify i woken ∧ (s.object.calls i).any signals.notifies ∧ Chosen s.asleep woken ∧
        LockedObject.step code s.object (.act i) = some (t.object, out) ∧
        t.asleep = woken.elim s.asleep fun j => s.asleep.erase j := by
  cases label with
  | wake i =>
    simp only [step] at moved
    split at moved
    next inside =>
      obtain ⟨rfl, rfl⟩ := Prod.mk.inj (Option.some.inj moved)
      exact .inl ⟨i, rfl, inside, rfl, rfl⟩
    next => contradiction
  | invoke i op =>
    obtain ⟨⟨object, lines⟩, work, same⟩ := Option.map_eq_some_iff.mp moved
    obtain ⟨rfl, rfl⟩ := Prod.mk.inj same
    exact .inr (.inl ⟨i, op, rfl, work, rfl⟩)
  | finish i =>
    obtain ⟨⟨object, lines⟩, work, same⟩ := Option.map_eq_some_iff.mp moved
    obtain ⟨rfl, rfl⟩ := Prod.mk.inj same
    exact .inr (.inr (.inl ⟨i, rfl, work, rfl⟩))
  | act i =>
    simp only [step] at moved
    split at moved
    next => contradiction
    next awake =>
      obtain ⟨⟨object, lines⟩, work, same⟩ := Option.map_eq_some_iff.mp moved
      obtain ⟨rfl, rfl⟩ := Prod.mk.inj same
      rw [not_or, Bool.not_eq_true] at awake
      exact .inr (.inr (.inr (.inl ⟨i, rfl, awake.1, awake.2, work, rfl⟩)))
  | notify i woken =>
    simp only [step] at moved
    split at moved
    next chosen =>
      obtain ⟨⟨object, lines⟩, work, same⟩ := Option.map_eq_some_iff.mp moved
      obtain ⟨rfl, rfl⟩ := Prod.mk.inj same
      exact .inr (.inr (.inr (.inr ⟨i, woken, rfl, chosen.1, chosen.2, work, rfl⟩)))
    next => contradiction

/-- With a condition variable the object does nothing that it does not do without one. -/
theorem simulates (code : Code μ Op P ρ γ) (signals : Signals P) :
    Transducer.Simulates (step (ι := ι) code signals) (LockedObject.step code) fun s t => s.object = t := by
  rintro s _ label t out rfl moved
  rcases object_step moved with ⟨i, _, _, rfl, rfl⟩ | ⟨i, op, _, work, _⟩ | ⟨i, _, work, _⟩ | ⟨i, _, _, _, work, _⟩ |
    ⟨i, _, _, _, _, work, _⟩
  · exact ⟨[], _, rfl, rfl⟩
  · exact ⟨_, _, Transducer.run_single work, rfl⟩
  · exact ⟨_, _, Transducer.run_single work, rfl⟩
  · exact ⟨_, _, Transducer.run_single work, rfl⟩
  · exact ⟨_, _, Transducer.run_single work, rfl⟩

end Simulation

/-- Calls that wait only where there is no work, and notify where there is
more. `work` is how much the memory has, and `covers` how much of it a call
at a point answers for: it takes that much, or it wakes somebody who does. -/
structure Wakes (code : Code μ Op P ρ γ) (signals : Signals P) (work : μ → Nat) (covers : P → Nat) : Prop where
  parked : ∀ p, signals.waits p → code.holds p = .nothing ∧ code.answer p = none ∧ covers p = 1
  apart : ∀ p, signals.notifies p → signals.waits p = false
  ended : ∀ p, code.answer p ≠ none → covers p = 0
  sleeps : ∀ p m next, code.act p m = some next → signals.waits next.2.1 →
    signals.notifies p = false ∧ work next.1 = 0
  covered : ∀ p m next, code.act p m = some next → signals.waits next.2.1 = false →
    work next.1 + covers p ≤ work m + covers next.2.1 + if signals.notifies p then 1 else 0

/-- What the call of each caller answers for. -/
def cover (covers : P → Nat) (calls : ι → Option P) (i : ι) : Nat := ((calls i).map covers).getD 0

theorem cover_update (covers : P → Nat) (calls : ι → Option P) (i : ι) (call : Option P) :
    cover covers (Function.update calls i call) =
      Function.update (cover covers calls) i ((call.map covers).getD 0) := by
  funext j
  by_cases same : j = i
  · simp [cover, same]
  · simp [cover, same]

/-- Those asleep stand where the code waits. If there are any, the callers
that are awake answer for all the work. -/
structure Watched (signals : Signals P) (work : μ → Nat) (covers : P → Nat) (s : Monitor ι μ P) : Prop where
  nodup : s.asleep.Nodup
  parked : ∀ i ∈ s.asleep, ∃ p, s.object.calls i = some p ∧ signals.waits p
  covered : s.asleep = [] ∨ ∃ awake : Finset ι, (∀ i ∈ awake, i ∉ s.asleep) ∧
    work s.object.memory ≤ ∑ i ∈ awake, cover covers s.object.calls i

omit [DecidableEq ι] in
theorem watched_start (signals : Signals P) (work : μ → Nat) (covers : P → Nat) (m : μ) :
    Watched signals work covers ({ object := { memory := m } } : Monitor ι μ P) where
  nodup := List.nodup_nil
  parked i inside := by simp at inside
  covered := .inl rfl

/-- One caller changes what it answers for. -/
theorem sum_insert_update (f : ι → Nat) (awake : Finset ι) (i : ι) (v : Nat) :
    ∑ j ∈ awake, f j + v ≤ ∑ j ∈ insert i awake, Function.update f i v j + f i := by
  have after : ∑ j ∈ insert i awake, Function.update f i v j = v + ∑ j ∈ awake.erase i, f j := by
    rw [Finset.sum_update_of_mem (Finset.mem_insert_self i awake), Finset.sdiff_singleton_eq_erase,
      Finset.erase_insert_eq_erase]
  have before : ∑ j ∈ awake, f j ≤ f i + ∑ j ∈ awake.erase i, f j := by
    by_cases inside : i ∈ awake
    · exact (Finset.add_sum_erase awake f inside).ge
    · rw [Finset.erase_eq_of_notMem inside]
      exact Nat.le_add_left _ _
  omega

section Waking

variable {code : Code μ Op P ρ γ} {signals : Signals P} {work : μ → Nat} {covers : P → Nat} {s t : Monitor ι μ P}
  {label : Label ι Op} {out : List (Output ι Op ρ γ)}

omit [DecidableEq ι] in
theorem Watched.up_of_none (watched : Watched signals work covers s) {i : ι} (absent : s.object.calls i = none) :
    i ∉ s.asleep := by
  intro inside
  obtain ⟨p, called, _⟩ := watched.parked i inside
  simp [absent] at called

omit [DecidableEq ι] in
theorem Watched.up_of_stands (watched : Watched signals work covers s) {i : ι} {p : P}
    (called : s.object.calls i = some p) (stands : signals.waits p = false) : i ∉ s.asleep := by
  intro inside
  obtain ⟨q, atQ, waits⟩ := watched.parked i inside
  rw [called, Option.some.injEq] at atQ
  simp [← atQ, stands] at waits

theorem Wakes.not_waits_of_answer (wakes : Wakes code signals work covers) {p : P} {answer : ρ}
    (ended : code.answer p = some answer) : signals.waits p = false :=
  Bool.eq_false_iff.mpr fun waits => by simp [(wakes.parked p waits).2.1] at ended

theorem Watched.parked_update (watched : Watched signals work covers s) {i : ι} (up : i ∉ s.asleep) (call : Option P)
    {j : ι} (inside : j ∈ s.asleep) :
    ∃ p, Function.update s.object.calls i call j = some p ∧ signals.waits p := by
  have other : j ≠ i := fun same => up (same ▸ inside)
  rw [Function.update_of_ne other]
  exact watched.parked j inside

/-- A caller that is awake goes on, and what it gives up of its part is no more than the work gets less. -/
theorem Watched.goes_on (watched : Watched signals work covers s) {i : ι} (up : i ∉ s.asleep) {call : Option P}
    {object : State ι μ P} (calls : object.calls = Function.update s.object.calls i call)
    (paid : work object.memory + cover covers s.object.calls i ≤ work s.object.memory + (call.map covers).getD 0) :
    Watched signals work covers ⟨object, s.asleep⟩ where
  nodup := watched.nodup
  parked j inside := by
    dsimp only
    rw [calls]
    exact watched.parked_update up call inside
  covered := by
    refine watched.covered.imp_right fun ⟨awake, apart, bound⟩ => ⟨insert i awake, ?_, ?_⟩
    · exact fun j member => (Finset.mem_insert.mp member).elim (fun same => same ▸ up) (apart j)
    · have grown := sum_insert_update (cover covers s.object.calls) awake i ((call.map covers).getD 0)
      dsimp only
      rw [calls, cover_update]
      omega

/-- Waking somebody adds a caller that answers for a piece of work. -/
theorem Watched.wakes_one (watched : Watched signals work covers s) (wakes : Wakes code signals work covers) {i j : ι}
    (up : i ∉ s.asleep) (inside : j ∈ s.asleep) {call : Option P} {object : State ι μ P}
    (calls : object.calls = Function.update s.object.calls i call)
    (paid : work object.memory + cover covers s.object.calls i ≤
      work s.object.memory + (call.map covers).getD 0 + 1) :
    Watched signals work covers ⟨object, s.asleep.erase j⟩ where
  nodup := watched.nodup.erase j
  parked k member := by
    dsimp only
    rw [calls]
    exact watched.parked_update up call (List.mem_of_mem_erase member)
  covered := by
    obtain empty | ⟨awake, apart, bound⟩ := watched.covered
    · rw [empty] at inside
      contradiction
    · have here : ∀ k ∈ insert i awake, k ∉ s.asleep := fun k member =>
        (Finset.mem_insert.mp member).elim (fun same => same ▸ up) (apart k)
      obtain ⟨p, standing, waits⟩ := watched.parked_update up call inside
      refine .inr ⟨insert j (insert i awake), fun k member => ?_, ?_⟩
      · obtain rfl | member := Finset.mem_insert.mp member
        · exact watched.nodup.not_mem_erase
        · exact fun left => here k member (List.mem_of_mem_erase left)
      · have grown := sum_insert_update (cover covers s.object.calls) awake i ((call.map covers).getD 0)
        have part : cover covers object.calls j = 1 := by
          rw [cover, calls, standing, Option.map_some, Option.getD_some, (wakes.parked p waits).2.2]
        dsimp only
        rw [Finset.sum_insert fun member => here j member inside, part, calls, cover_update]
        omega

theorem Watched.step (watched : Watched signals work covers s) (wakes : Wakes code signals work covers)
    (moved : Monitor.step code signals s label = some (t, out)) : Watched signals work covers t := by
  obtain ⟨object, asleep⟩ := t
  rcases object_step moved with ⟨i, _, inside, same, _⟩ | ⟨i, op, _, invoked, same⟩ | ⟨i, _, finished, same⟩ |
    ⟨i, _, up, quiet, acted, same⟩ | ⟨i, woken, _, notifying, chosen, acted, same⟩
  · -- one more is awake, and none of those that answer for the work has gone
    obtain ⟨rfl, rfl⟩ := Monitor.mk.inj same
    refine ⟨watched.nodup.erase i, fun j member => watched.parked j (List.mem_of_mem_erase member), ?_⟩
    refine watched.covered.imp (fun empty => ?_) fun ⟨awake, apart, bound⟩ => ⟨awake, fun j member left => ?_, bound⟩
    · simp [empty]
    · exact apart j member (List.mem_of_mem_erase left)
  · obtain ⟨absent, rfl, _⟩ := step_invoke invoked
    obtain rfl := same
    refine watched.goes_on (watched.up_of_none absent) rfl ?_
    simp [cover, absent]
  · obtain ⟨p, answer, called, ended, rfl, _⟩ := step_finish finished
    obtain rfl := same
    refine watched.goes_on (watched.up_of_stands called (wakes.not_waits_of_answer ended)) rfl ?_
    simp [cover, called, wakes.ended p (by simp [ended])]
  · obtain ⟨p, next, mutex, called, performed, _, rfl, _⟩ := step_act acted
    simp only [Function.update_self, Option.any_some] at same
    rw [called, Option.any_some] at quiet
    cases waits : signals.waits next.2.1 with
    | true =>
      rw [waits, if_pos rfl] at same
      obtain rfl := same
      refine ⟨List.nodup_cons.mpr ⟨up, watched.nodup⟩, fun j member => ?_, .inr ⟨∅, by simp, ?_⟩⟩
      · obtain rfl | member := List.mem_cons.mp member
        · exact ⟨_, Function.update_self .., waits⟩
        · exact watched.parked_update up _ member
      · exact ((wakes.sleeps p _ next performed waits).2.trans_le (Nat.zero_le _)).trans (Nat.zero_le _)
    | false =>
      rw [waits, if_neg Bool.false_ne_true] at same
      obtain rfl := same
      refine watched.goes_on up rfl ?_
      simpa [cover, called, quiet] using wakes.covered p _ next performed waits
  · obtain ⟨p, next, mutex, called, performed, _, rfl, _⟩ := step_act acted
    rw [called, Option.any_some] at notifying
    have up := watched.up_of_stands called (wakes.apart p notifying)
    have stays : signals.waits next.2.1 = false := Bool.eq_false_iff.mpr fun waits => by
      simp [(wakes.sleeps p _ next performed waits).1] at notifying
    cases woken with
    | none =>
      obtain rfl := same
      refine ⟨watched.nodup, fun j member => watched.parked_update up _ member, .inl chosen⟩
    | some j =>
      obtain rfl := same
      refine watched.wakes_one wakes up chosen rfl ?_
      simpa [cover, called, notifying] using wakes.covered p _ next performed stays

theorem goes_on_of_act {i : ι} (up : i ∉ s.asleep)
    (enabled : LockedObject.step (γ := γ) code s.object (.act i) ≠ none) :
    ∃ label, label.onward ∧ Monitor.step (γ := γ) code signals s label ≠ none := by
  obtain ⟨next, acted⟩ := Option.ne_none_iff_exists'.mp enabled
  by_cases notifies : (s.object.calls i).any signals.notifies
  · obtain ⟨woken, chosen⟩ : ∃ woken, Chosen s.asleep woken := by
      cases asleep : s.asleep with
      | nil => exact ⟨none, rfl⟩
      | cons j rest => exact ⟨some j, List.mem_cons_self⟩
    exact ⟨.notify i woken, rfl, by simp [Monitor.step, notifies, chosen, acted]⟩
  · exact ⟨.act i, rfl, by simp [Monitor.step, up, notifies, acted]⟩

variable {spec : Op → μ → Option (μ × ρ × List γ)} {Stands : Op → μ → P → μ → Prop} {Settled : ρ → P → Prop}
  {a : Atomic ι μ Op ρ}

/-- As long as a call under way is awake, some call can go on. -/
theorem Watched.progress (watched : Watched signals work covers s) (wakes : Wakes code signals work covers)
    (disciplined : Disciplined code spec Stands Settled) (related : Related code Stands Settled s.object a) {i : ι}
    (up : i ∉ s.asleep) (called : s.object.calls i ≠ none) :
    ∃ label, label.onward ∧ Monitor.step (γ := γ) code signals s label ≠ none := by
  obtain ⟨j, first, goes⟩ := related.turn disciplined called
  have up : j ∉ s.asleep := by
    obtain rfl | holds := first
    · exact up
    · intro inside
      obtain ⟨p, standing, waits⟩ := watched.parked j inside
      simp [held, standing, (wakes.parked p waits).1] at holds
  rcases goes with acts | finishes
  · exact goes_on_of_act up acts
  · exact ⟨.finish j, rfl, by simpa [Monitor.step] using finishes⟩

end Waking

/-- Calls that end. `steps` is how far a call that is awake has to go at
most, with `rest` of it left while it sleeps; being woken adds `woken`, which
the one who notifies pays for. -/
structure Winds (code : Code μ Op P ρ γ) (signals : Signals P) (steps : P → Nat) (rest woken : Nat) : Prop where
  acts : ∀ p m next, code.act p m = some next → signals.waits next.2.1 = false →
    steps next.2.1 + (if signals.notifies p then woken else 0) < steps p
  sleeps : ∀ p m next, code.act p m = some next → signals.waits next.2.1 → rest < steps p
  wakes : ∀ p, signals.waits p → steps p ≤ rest + woken
  ends : ∀ p, code.answer p ≠ none → 0 < steps p

/-- How far the call of a caller still has to go. -/
def effort (steps : P → Nat) (rest : Nat) (s : Monitor ι μ P) (i : ι) : Nat :=
  if i ∈ s.asleep then rest else ((s.object.calls i).map steps).getD 0

section Winding

variable {code : Code μ Op P ρ γ} {signals : Signals P} {work : μ → Nat} {covers : P → Nat} {steps : P → Nat}
  {rest woken : Nat} {s t : Monitor ι μ P} {label : Label ι Op} {out : List (Output ι Op ρ γ)}

theorem effort_of_ne {i j : ι} (other : j ≠ i) {call : Option P}
    (calls : t.object.calls = Function.update s.object.calls i call) (same : j ∈ t.asleep ↔ j ∈ s.asleep) :
    effort steps rest t j = effort steps rest s j := by
  simp only [effort, calls, same, Function.update_of_ne other]

theorem effort_of_up {i : ι} (up : i ∉ s.asleep) {p : P} (called : s.object.calls i = some p) :
    effort steps rest s i = steps p := by simp [effort, up, called]

theorem sum_effort_lt {busy : Finset ι} {i : ι} (inside : i ∈ busy)
    (others : ∀ j, j ≠ i → effort steps rest t j = effort steps rest s j)
    (less : effort steps rest t i < effort steps rest s i) :
    ∑ j ∈ busy, effort steps rest t j < ∑ j ∈ busy, effort steps rest s j := by
  refine Finset.sum_lt_sum (fun j _ => ?_) ⟨i, inside, less⟩
  by_cases same : j = i
  · exact same ▸ less.le
  · exact (others j same).le

/-- The one who notifies pays for the one who wakes. -/
theorem sum_effort_lt_of_woken {busy : Finset ι} {i j : ι} (inside : i ∈ busy) (slept : j ∈ busy) (apart : j ≠ i)
    (others : ∀ k, k ≠ i → k ≠ j → effort steps rest t k = effort steps rest s k)
    (less : effort steps rest t i + woken < effort steps rest s i)
    (more : effort steps rest t j ≤ effort steps rest s j + woken) :
    ∑ k ∈ busy, effort steps rest t k < ∑ k ∈ busy, effort steps rest s k := by
  have total : ∑ k ∈ busy, (effort steps rest t k + if k = i then woken else 0) <
      ∑ k ∈ busy, (effort steps rest s k + if k = j then woken else 0) := by
    refine Finset.sum_lt_sum (fun k _ => ?_) ⟨i, inside, by simpa [apart.symm] using less⟩
    by_cases first : k = i
    · simpa [first, apart.symm] using less.le
    · by_cases second : k = j
      · simpa [second, apart] using more
      · simp [first, second, others k first second]
  simpa [Finset.sum_add_distrib, Finset.sum_ite_eq', inside, slept] using total

/-- Every step of a call that is awake brings the calls nearer to their ends, all taken together. -/
theorem Watched.effort_lt (watched : Watched signals work covers s) (wakes : Wakes code signals work covers)
    (winds : Winds code signals steps rest woken) {busy : Finset ι} (all : ∀ i, s.object.calls i ≠ none → i ∈ busy)
    (onward : label.onward) (moved : Monitor.step code signals s label = some (t, out)) :
    (∀ i, t.object.calls i ≠ none → i ∈ busy) ∧
      ∑ i ∈ busy, effort steps rest t i < ∑ i ∈ busy, effort steps rest s i := by
  have still : ∀ i p call, s.object.calls i = some p → t.object.calls = Function.update s.object.calls i call →
      i ∈ busy ∧ ∀ j, t.object.calls j ≠ none → j ∈ busy := by
    intro i p call called calls
    have inside := all i (by simp [called])
    refine ⟨inside, fun j under => ?_⟩
    by_cases same : j = i
    · exact same ▸ inside
    · rw [calls, Function.update_of_ne same] at under
      exact all j under
  rcases object_step moved with ⟨i, rfl, _⟩ | ⟨i, op, rfl, _⟩ | ⟨i, _, finished, same⟩ |
    ⟨i, _, up, quiet, acted, same⟩ | ⟨i, chosen, _, notifying, inside, acted, same⟩
  · contradiction
  · contradiction
  · obtain ⟨p, answer, called, ended, after, _⟩ := step_finish finished
    have calls := congrArg State.calls after
    obtain ⟨member, kept⟩ := still i p none called calls
    have up := watched.up_of_stands called (wakes.not_waits_of_answer ended)
    refine ⟨kept, sum_effort_lt member (fun j other => effort_of_ne other calls (by rw [same])) ?_⟩
    have before : effort steps rest s i = steps p := effort_of_up up called
    have now : effort steps rest t i = 0 := by simp [effort, same, up, calls]
    have positive := winds.ends p (by simp [ended])
    omega
  · obtain ⟨p, next, mutex, called, performed, _, after, _⟩ := step_act acted
    have calls := congrArg State.calls after
    obtain ⟨member, kept⟩ := still i p _ called calls
    have before : effort steps rest s i = steps p := effort_of_up up called
    simp only [calls, Function.update_self, Option.any_some] at same
    refine ⟨kept, sum_effort_lt member (fun j other => effort_of_ne other calls ?_) ?_⟩
    · rw [same]
      split
      · simp [other]
      · rfl
    · cases waits : signals.waits next.2.1 with
      | true =>
        have now : effort steps rest t i = rest := by simp [effort, same, waits]
        have less := winds.sleeps p _ next performed waits
        omega
      | false =>
        have now : effort steps rest t i = steps next.2.1 := by simp [effort, same, waits, up, calls]
        have less := winds.acts p _ next performed waits
        omega
  · obtain ⟨p, next, mutex, called, performed, _, after, _⟩ := step_act acted
    have calls := congrArg State.calls after
    obtain ⟨member, kept⟩ := still i p _ called calls
    rw [called, Option.any_some] at notifying
    have up := watched.up_of_stands called (wakes.apart p notifying)
    have before : effort steps rest s i = steps p := effort_of_up up called
    have stays : signals.waits next.2.1 = false := Bool.eq_false_iff.mpr fun waits => by
      simp [(wakes.sleeps p _ next performed waits).1] at notifying
    have less := winds.acts p _ next performed stays
    rw [if_pos notifying] at less
    cases chosen with
    | none =>
      refine ⟨kept, sum_effort_lt member (fun j other => effort_of_ne other calls (by rw [same]; rfl)) ?_⟩
      have now : effort steps rest t i = steps next.2.1 := by simp [effort, same, up, calls]
      omega
    | some j =>
      have other : j ≠ i := fun equal => up (equal ▸ inside)
      obtain ⟨q, atQ, waits⟩ := watched.parked j inside
      have stillUp : i ∉ s.asleep.erase j := fun left => up (List.mem_of_mem_erase left)
      have now : effort steps rest t i = steps next.2.1 := by simp [effort, same, calls, stillUp]
      have slept : effort steps rest s j = rest := by simp [effort, show j ∈ s.asleep from inside]
      have woke : effort steps rest t j = steps q := by
        simp [effort, same, calls, other, atQ, watched.nodup.not_mem_erase]
      have bound := winds.wakes q waits
      have pays : effort steps rest t i + woken < effort steps rest s i := by omega
      refine ⟨kept, sum_effort_lt_of_woken member (all j (by simp [atQ])) other (fun k first second => ?_) pays ?_⟩
      · exact effort_of_ne first calls (by simp [same, second])
      · omega

/-- The calls under way take no more steps than they have to go. -/
theorem Watched.length_le (watched : Watched signals work covers s) (wakes : Wakes code signals work covers)
    (winds : Winds code signals steps rest woken) {busy : Finset ι} (all : ∀ i, s.object.calls i ≠ none → i ∈ busy)
    {labels : List (Label ι Op)} (ran : Transducer.run (Monitor.step code signals) s labels = some (t, out))
    (onward : ∀ label ∈ labels, label.onward) :
    labels.length + ∑ i ∈ busy, effort steps rest t i ≤ ∑ i ∈ busy, effort steps rest s i := by
  have preserved : ∀ s (label : Label ι Op) t,
      Watched signals work covers s ∧ (∀ i, s.object.calls i ≠ none → i ∈ busy) → label.onward →
      (Monitor.step code signals s label).map Prod.fst = some t →
      (Watched signals work covers t ∧ ∀ i, t.object.calls i ≠ none → i ∈ busy) ∧
        ∑ i ∈ busy, effort steps rest t i < ∑ i ∈ busy, effort steps rest s i := by
    rintro s label t ⟨watched, all⟩ goes stepped
    obtain ⟨⟨_, lines⟩, moved, rfl⟩ := Option.map_eq_some_iff.mp stepped
    obtain ⟨still, less⟩ := watched.effort_lt wakes winds all goes moved
    exact ⟨⟨watched.step wakes moved, still⟩, less⟩
  exact LabelledRun.exec_length_le_of_measure _ preserved (Transducer.exec_of_run ran) onward ⟨watched, all⟩

end Winding

end Monitor

end LockedObject
