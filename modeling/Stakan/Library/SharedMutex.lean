import Mathlib.Data.Finset.Basic
import Mathlib.Logic.Function.Basic

/-- What a caller holds of a readers-writer lock. -/
inductive Hold
  | nothing
  | shared
  | exclusive
  deriving DecidableEq

/-- A readers-writer lock, by the callers that hold it. -/
structure SharedMutex (ι : Type*) where
  exclusive : Option ι := none
  shared : Finset ι := ∅

namespace SharedMutex

variable {ι : Type*} [DecidableEq ι]

def lock (mutex : SharedMutex ι) (i : ι) : Option (SharedMutex ι) :=
  if mutex.exclusive = none ∧ mutex.shared = ∅ then some { mutex with exclusive := some i } else none

def lockShared (mutex : SharedMutex ι) (i : ι) : Option (SharedMutex ι) :=
  if mutex.exclusive = none then some { mutex with shared := insert i mutex.shared } else none

def unlock (mutex : SharedMutex ι) : SharedMutex ι := { mutex with exclusive := none }

def unlockShared (mutex : SharedMutex ι) (i : ι) : SharedMutex ι := { mutex with shared := mutex.shared.erase i }

/-- The lock after caller `i` has gone over from one hold to the next. There
is none as long as the caller has to wait. A hold is given up before another
one is taken. -/
def move (mutex : SharedMutex ι) (i : ι) : Hold → Hold → Option (SharedMutex ι)
  | .nothing, .exclusive => mutex.lock i
  | .nothing, .shared => mutex.lockShared i
  | .exclusive, .nothing => some mutex.unlock
  | .shared, .nothing => some (mutex.unlockShared i)
  | hold, next => if hold = next then some mutex else none

/-- The lock knows what each caller holds, and nobody shares it with the
caller that holds it for itself. -/
structure Guards (mutex : SharedMutex ι) (holds : ι → Hold) : Prop where
  exclusive : ∀ i, mutex.exclusive = some i ↔ holds i = .exclusive
  shared : ∀ i, i ∈ mutex.shared ↔ holds i = .shared
  apart : mutex.exclusive ≠ none → mutex.shared = ∅

omit [DecidableEq ι] in
theorem guards_free : ({} : SharedMutex ι).Guards fun _ => .nothing where
  exclusive i := by simp
  shared i := by simp
  apart held := absurd rfl held

variable {mutex next : SharedMutex ι} {holds : ι → Hold} {i j : ι} {hold : Hold}

omit [DecidableEq ι] in
/-- While a caller holds the lock for itself, no other caller holds anything. -/
theorem Guards.alone (guards : mutex.Guards holds) (owner : holds i = .exclusive) (other : j ≠ i) :
    holds j = .nothing := by
  have held := (guards.exclusive i).mpr owner
  cases atJ : holds j with
  | nothing => rfl
  | exclusive =>
    have same := held.symm.trans ((guards.exclusive j).mpr atJ)
    exact absurd (Option.some.inj same).symm other
  | shared =>
    have inside := (guards.shared j).mpr atJ
    rw [guards.apart (by simp [held])] at inside
    simp at inside

omit [DecidableEq ι] in
theorem Guards.no_owner (guards : mutex.Guards holds) (reader : holds i = .shared) (j : ι) :
    holds j ≠ .exclusive := by
  intro owner
  have inside := (guards.shared i).mpr reader
  rw [guards.apart (by simp [(guards.exclusive j).mpr owner])] at inside
  simp at inside

theorem lock_eq_some (locked : mutex.lock i = some next) :
    mutex.exclusive = none ∧ mutex.shared = ∅ ∧ next = { mutex with exclusive := some i } := by
  unfold lock at locked
  split at locked
  next free => exact ⟨free.1, free.2, (Option.some.inj locked).symm⟩
  next => contradiction

theorem lockShared_eq_some (locked : mutex.lockShared i = some next) :
    mutex.exclusive = none ∧ next = { mutex with shared := insert i mutex.shared } := by
  unfold lockShared at locked
  split at locked
  next free => exact ⟨free, (Option.some.inj locked).symm⟩
  next => contradiction

/-- A caller gets the lock for itself only when nobody has it. -/
theorem Guards.free_of_lock (guards : mutex.Guards holds) (locked : mutex.lock i = some next) (j : ι) :
    holds j = .nothing := by
  obtain ⟨free, empty, _⟩ := lock_eq_some locked
  cases atJ : holds j with
  | nothing => rfl
  | exclusive => simpa [free] using (guards.exclusive j).mpr atJ
  | shared => simpa [empty] using (guards.shared j).mpr atJ

theorem Guards.lock (guards : mutex.Guards holds) (locked : mutex.lock i = some next) :
    next.Guards (Function.update holds i .exclusive) := by
  have nobody := guards.free_of_lock locked
  obtain ⟨_, empty, rfl⟩ := lock_eq_some locked
  refine ⟨fun j => ?_, fun j => ?_, fun _ => empty⟩
  · by_cases same : j = i
    · simp [same]
    · simp [same, nobody j, Ne.symm same]
  · by_cases same : j = i
    · simp [same, empty]
    · simp [same, nobody j, empty]

theorem Guards.lockShared (guards : mutex.Guards holds) (locked : mutex.lockShared i = some next) :
    next.Guards (Function.update holds i .shared) := by
  obtain ⟨free, rfl⟩ := lockShared_eq_some locked
  refine ⟨fun j => ?_, fun j => ?_, fun held => absurd free held⟩
  · by_cases same : j = i
    · simp [same, free]
    · simpa [same] using guards.exclusive j
  · by_cases same : j = i
    · simp [same]
    · simpa [same] using guards.shared j

theorem Guards.unlock (guards : mutex.Guards holds) (owner : holds i = .exclusive) :
    mutex.unlock.Guards (Function.update holds i .nothing) := by
  have empty : mutex.shared = ∅ := guards.apart (by simp [(guards.exclusive i).mpr owner])
  refine ⟨fun j => ?_, fun j => ?_, fun _ => empty⟩
  · by_cases same : j = i
    · simp [SharedMutex.unlock, same]
    · simp [SharedMutex.unlock, same, guards.alone owner same]
  · by_cases same : j = i
    · simp [SharedMutex.unlock, same, empty]
    · simpa [SharedMutex.unlock, same] using guards.shared j

theorem Guards.unlockShared (guards : mutex.Guards holds) (reader : holds i = .shared) :
    (mutex.unlockShared i).Guards (Function.update holds i .nothing) := by
  have nobody := guards.no_owner reader
  have free : mutex.exclusive = none :=
    Option.eq_none_iff_forall_ne_some.mpr fun j owner => nobody j ((guards.exclusive j).mp owner)
  refine ⟨fun j => ?_, fun j => ?_, fun held => absurd free held⟩
  · by_cases same : j = i
    · simp [SharedMutex.unlockShared, same, free]
    · simpa [SharedMutex.unlockShared, same] using guards.exclusive j
  · by_cases same : j = i
    · simp [SharedMutex.unlockShared, same]
    · simpa [SharedMutex.unlockShared, same] using guards.shared j

/-- Going over from one hold to the next keeps the lock's account. -/
theorem Guards.move (guards : mutex.Guards holds) {before : Hold} (stood : holds i = before)
    (moved : mutex.move i before hold = some next) : next.Guards (Function.update holds i hold) := by
  have stays : ∀ hold, holds i = hold → mutex = next → next.Guards (Function.update holds i hold) := by
    rintro _ rfl rfl
    rwa [Function.update_eq_self]
  cases before <;> cases hold
  case nothing.exclusive => exact guards.lock moved
  case nothing.shared => exact guards.lockShared moved
  case exclusive.nothing => exact Option.some.inj moved ▸ guards.unlock stood
  case shared.nothing => exact Option.some.inj moved ▸ guards.unlockShared stood
  case nothing.nothing => exact stays _ stood (Option.some.inj moved)
  case shared.shared => exact stays _ stood (Option.some.inj moved)
  case exclusive.exclusive => exact stays _ stood (Option.some.inj moved)
  case shared.exclusive => simp [SharedMutex.move] at moved
  case exclusive.shared => simp [SharedMutex.move] at moved

end SharedMutex
