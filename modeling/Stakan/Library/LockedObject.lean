import Stakan.Library.SharedMutex
import Stakan.Library.Transducer

namespace LockedObject

/-- The code of an object's calls: where a call of an operation starts, what
a call holds of the object's lock at each point, what its next step makes of
the memory, and with which answer it is over. A step that is undefined has
no result. -/
structure Code (μ Op P ρ γ : Type*) where
  start : Op → P
  holds : P → Hold
  act : P → μ → Option (μ × P × List γ)
  answer : P → Option ρ

/-- What is seen of an object from outside. -/
inductive Output (ι Op ρ γ : Type*)
  | invoked (caller : ι) (op : Op)
  | wrote (line : γ)
  | returned (caller : ι) (answer : ρ)

def Output.line {ι Op ρ γ : Type*} : Output ι Op ρ γ → Option γ
  | wrote line => some line
  | _ => none

@[simp] theorem Output.filterMap_line_wrote {ι Op ρ γ : Type*} (lines : List γ) :
    (lines.map (wrote : γ → Output ι Op ρ γ)).filterMap line = lines := by
  induction lines with
  | nil => rfl
  | cons first rest ih => rw [List.map_cons, List.filterMap_cons, line, ih]

inductive Label (ι Op : Type*)
  | invoke (caller : ι) (op : Op)
  | act (caller : ι)
  | finish (caller : ι)

/-- The memory of the object, its lock, and where the call of each caller stands. -/
structure State (ι μ P : Type*) where
  memory : μ
  mutex : SharedMutex ι := {}
  calls : ι → Option P := fun _ => none

variable {ι μ Op P ρ γ : Type*} [DecidableEq ι]

/-- One step of one caller. Taking the lock is part of the step before the
locked part, and giving it back part of the last step in it. -/
def step (code : Code μ Op P ρ γ) (s : State ι μ P) : Label ι Op → Option (State ι μ P × List (Output ι Op ρ γ))
  | .invoke i op => match s.calls i with
    | none => some ({ s with calls := Function.update s.calls i (some (code.start op)) }, [.invoked i op])
    | some _ => none
  | .act i => match s.calls i with
    | none => none
    | some p => (code.act p s.memory).bind fun next =>
      (s.mutex.move i (code.holds p) (code.holds next.2.1)).map fun mutex =>
        (⟨next.1, mutex, Function.update s.calls i (some next.2.1)⟩, next.2.2.map .wrote)
  | .finish i => match (s.calls i).bind code.answer with
    | none => none
    | some answer => some ({ s with calls := Function.update s.calls i none }, [.returned i answer])

/-- A call on the atomic object: not yet performed, or performed. -/
inductive Pending (Op ρ : Type*)
  | waiting (op : Op)
  | answered (answer : ρ)

/-- The object whose operations take effect in one piece. -/
structure Atomic (ι μ Op ρ : Type*) where
  memory : μ
  calls : ι → Option (Pending Op ρ) := fun _ => none

/-- Between its invocation and its return, a call is performed once. -/
def Atomic.step (spec : Op → μ → Option (μ × ρ × List γ)) (t : Atomic ι μ Op ρ) :
    Label ι Op → Option (Atomic ι μ Op ρ × List (Output ι Op ρ γ))
  | .invoke i op => match t.calls i with
    | none => some ({ t with calls := Function.update t.calls i (some (.waiting op)) }, [.invoked i op])
    | some _ => none
  | .act i => match t.calls i with
    | some (.waiting op) => (spec op t.memory).map fun done =>
      (⟨done.1, Function.update t.calls i (some (.answered done.2.1))⟩, done.2.2.map .wrote)
    | _ => none
  | .finish i => match t.calls i with
    | some (.answered answer) => some ({ t with calls := Function.update t.calls i none }, [.returned i answer])
    | _ => none

/-- A step of the atomic object performs one operation or leaves the memory alone. -/
theorem Atomic.performed_of_step {spec : Op → μ → Option (μ × ρ × List γ)} {t u : Atomic ι μ Op ρ} {label : Label ι Op}
    {out : List (Output ι Op ρ γ)} (moved : Atomic.step spec t label = some (u, out)) :
    (∃ op answer lines, spec op t.memory = some (u.memory, answer, lines) ∧ out = lines.map .wrote) ∨
      u.memory = t.memory ∧ out.filterMap Output.line = [] := by
  cases label with
  | invoke i op =>
    simp only [Atomic.step] at moved
    split at moved
    next =>
      obtain ⟨rfl, rfl⟩ := Prod.mk.inj (Option.some.inj moved)
      exact .inr ⟨rfl, rfl⟩
    next => contradiction
  | act i =>
    simp only [Atomic.step] at moved
    split at moved
    next op pending =>
      obtain ⟨⟨after, answer, lines⟩, performed, same⟩ := Option.map_eq_some_iff.mp moved
      obtain ⟨rfl, rfl⟩ := Prod.mk.inj same
      exact .inl ⟨op, answer, lines, performed, rfl⟩
    next => contradiction
  | finish i =>
    simp only [Atomic.step] at moved
    split at moved
    next answer pending =>
      obtain ⟨rfl, rfl⟩ := Prod.mk.inj (Option.some.inj moved)
      exact .inr ⟨rfl, rfl⟩
    next => contradiction

/-- Calls that keep to the lock and take effect in one of their steps.
`Stands op c p m` is what holds of a call of `op` that has not taken effect:
it stands at `p`, and where the object was `c` the memory is now `m`.
`Settled answer p` is what holds of a call that has. -/
structure Disciplined (code : Code μ Op P ρ γ) (spec : Op → μ → Option (μ × ρ × List γ))
    (Stands : Op → μ → P → μ → Prop) (Settled : ρ → P → Prop) : Prop where
  start_free : ∀ op, code.holds (code.start op) = .nothing
  start : ∀ op c, Stands op c (code.start op) c
  blind : ∀ op p c, code.holds p = .nothing → Stands op c p c → ∀ c', Stands op c' p c'
  unread : ∀ p m next, code.holds p = .nothing → code.act p m = some next → ∀ m', code.act p m' = some (m', next.2)
  unwritten : ∀ p m next, code.holds p ≠ .exclusive → code.act p m = some next → next.1 = m
  acts : ∀ op c p m next, Stands op c p m → (code.holds p ≠ .exclusive → m = c) → code.act p m = some next →
    (next.2.2 = [] ∧ Stands op c next.2.1 next.1 ∧ (code.holds next.2.1 ≠ .exclusive → next.1 = c)) ∨
      ∃ answer, spec op c = some (next.1, answer, next.2.2) ∧ Settled answer next.2.1
  settles : ∀ answer p m next, Settled answer p → code.act p m = some next →
    next.1 = m ∧ next.2.2 = [] ∧ Settled answer next.2.1
  unfinished : ∀ op c p m, Stands op c p m → code.answer p = none
  answers : ∀ answer p answer', Settled answer p → code.answer p = some answer' → answer' = answer
  end_free : ∀ p, code.answer p ≠ none → code.holds p = .nothing
  defined : ∀ op c p m, Stands op c p m → (code.holds p ≠ .exclusive → m = c) → code.act p m ≠ none
  settled_defined : ∀ answer p m, Settled answer p → code.answer p = none → code.act p m ≠ none
  no_upgrade : ∀ p m next, code.act p m = some next →
    code.holds p = .nothing ∨ code.holds next.2.1 = .nothing ∨ code.holds next.2.1 = code.holds p

/-- What each caller holds of the lock. -/
def held (code : Code μ Op P ρ γ) (calls : ι → Option P) (i : ι) : Hold := ((calls i).map code.holds).getD .nothing

theorem held_update (code : Code μ Op P ρ γ) (calls : ι → Option P) (i : ι) (call : Option P) :
    held code (Function.update calls i call) =
      Function.update (held code calls) i ((call.map code.holds).getD .nothing) := by
  funext j
  by_cases same : j = i
  · simp [held, same]
  · simp [held, same]

/-- The atomic object has the last committed memory. It differs from the real
one only while a call that holds the lock for itself is at work. -/
structure Related (code : Code μ Op P ρ γ) (Stands : Op → μ → P → μ → Prop) (Settled : ρ → P → Prop)
    (s : State ι μ P) (t : Atomic ι μ Op ρ) : Prop where
  guards : s.mutex.Guards (held code s.calls)
  idle : ∀ i, s.calls i = none ↔ t.calls i = none
  waiting : ∀ i p op, s.calls i = some p → t.calls i = some (.waiting op) →
    Stands op t.memory p (if code.holds p = .exclusive then s.memory else t.memory)
  answered : ∀ i p answer, s.calls i = some p → t.calls i = some (.answered answer) → Settled answer p
  memory : s.memory = t.memory ∨
    ∃ i p op, s.calls i = some p ∧ code.holds p = .exclusive ∧ t.calls i = some (.waiting op)

omit [DecidableEq ι] in
theorem related_start (code : Code μ Op P ρ γ) (Stands : Op → μ → P → μ → Prop) (Settled : ρ → P → Prop) (m : μ) :
    Related code Stands Settled ({ memory := m } : State ι μ P) { memory := m } where
  guards := SharedMutex.guards_free
  idle _ := by simp
  waiting i p op standing := by simp at standing
  answered i p answer standing := by simp at standing
  memory := .inl rfl

section Simulation

variable {code : Code μ Op P ρ γ} {spec : Op → μ → Option (μ × ρ × List γ)}
  {Stands : Op → μ → P → μ → Prop} {Settled : ρ → P → Prop} {s s' : State ι μ P} {t : Atomic ι μ Op ρ}
  {i : ι} {p : P} {out : List (Output ι Op ρ γ)}

omit [DecidableEq ι] in
theorem Related.memory_of_free (related : Related code Stands Settled s t)
    (free : ∀ j, held code s.calls j ≠ .exclusive) : s.memory = t.memory := by
  obtain same | ⟨j, q, _, standing, owner, _⟩ := related.memory
  · exact same
  · exact absurd (by simp [held, standing, owner]) (free j)

omit [DecidableEq ι] in
theorem Related.memory_of_quiet (related : Related code Stands Settled s t) (quiet : ∀ j, s.calls j = none) :
    s.memory = t.memory := related.memory_of_free fun j => by simp [held, quiet j]

theorem step_invoke {op : Op} (moved : step code s (.invoke i op) = some (s', out)) :
    s.calls i = none ∧ s' = { s with calls := Function.update s.calls i (some (code.start op)) } ∧
      out = [.invoked i op] := by
  simp only [step] at moved
  split at moved
  next absent =>
    obtain ⟨rfl, rfl⟩ := Prod.mk.inj (Option.some.inj moved)
    exact ⟨absent, rfl, rfl⟩
  next => contradiction

theorem step_act (moved : step code s (.act i) = some (s', out)) :
    ∃ p next mutex, s.calls i = some p ∧ code.act p s.memory = some next ∧
      s.mutex.move i (code.holds p) (code.holds next.2.1) = some mutex ∧
      s' = ⟨next.1, mutex, Function.update s.calls i (some next.2.1)⟩ ∧ out = next.2.2.map .wrote := by
  simp only [step] at moved
  split at moved
  next => contradiction
  next p standing =>
    obtain ⟨next, acted, rest⟩ := Option.bind_eq_some_iff.mp moved
    obtain ⟨mutex, locked, same⟩ := Option.map_eq_some_iff.mp rest
    obtain ⟨rfl, rfl⟩ := Prod.mk.inj same
    exact ⟨p, next, mutex, standing, acted, locked, rfl, rfl⟩

theorem step_finish (moved : step code s (.finish i) = some (s', out)) :
    ∃ p answer, s.calls i = some p ∧ code.answer p = some answer ∧
      s' = { s with calls := Function.update s.calls i none } ∧ out = [.returned i answer] := by
  simp only [step] at moved
  split at moved
  next => contradiction
  next answer found =>
    obtain ⟨p, standing, ended⟩ := Option.bind_eq_some_iff.mp found
    obtain ⟨rfl, rfl⟩ := Prod.mk.inj (Option.some.inj moved)
    exact ⟨p, answer, standing, ended, rfl, rfl⟩

theorem Related.guards_act (related : Related code Stands Settled s t) {mutex : SharedMutex ι} {q : P}
    (standing : s.calls i = some p) (moved : s.mutex.move i (code.holds p) (code.holds q) = some mutex) :
    mutex.Guards (held code (Function.update s.calls i (some q))) := by
  rw [held_update]
  exact related.guards.move (by simp [held, standing]) moved

omit [DecidableEq ι] in
/-- What the other callers stand on is kept by a step of the only owner of
the lock, and by a step that leaves both memories alone. -/
theorem Related.others (related : Related code Stands Settled s t) (disciplined : Disciplined code spec Stands Settled)
    {m c : μ} (apart : held code s.calls i = .exclusive ∨ m = s.memory ∧ c = t.memory) {j : ι} (other : j ≠ i)
    {q : P} {op : Op} (standing : s.calls j = some q) (pending : t.calls j = some (.waiting op)) :
    Stands op c q (if code.holds q = .exclusive then m else c) := by
  have stands := related.waiting j q op standing pending
  rcases apart with owner | ⟨rfl, rfl⟩
  · have free : code.holds q = .nothing := by simpa [held, standing] using related.guards.alone owner other
    simp only [free, reduceCtorEq, if_false] at stands ⊢
    exact disciplined.blind op q _ free stands c
  · exact stands

theorem Related.invoke (related : Related code Stands Settled s t) (disciplined : Disciplined code spec Stands Settled)
    {op : Op} (absent : s.calls i = none) :
    Related code Stands Settled { s with calls := Function.update s.calls i (some (code.start op)) }
      { t with calls := Function.update t.calls i (some (.waiting op)) } where
  guards := by
    have before : held code s.calls i = .nothing := by simp [held, absent]
    rw [held_update, Option.map_some, Option.getD_some, disciplined.start_free, ← before, Function.update_eq_self]
    exact related.guards
  idle j := by
    by_cases same : j = i
    · simp [same]
    · simpa [same] using related.idle j
  waiting j q op' standing pending := by
    by_cases same : j = i
    · simp only [same, Function.update_self, Option.some.injEq, Pending.waiting.injEq] at standing pending
      subst standing pending
      simpa [disciplined.start_free] using disciplined.start op t.memory
    · simp only [Function.update_of_ne same] at standing pending
      exact related.waiting j q op' standing pending
  answered j q answer standing pending := by
    by_cases same : j = i
    · simp [same] at pending
    · simp only [Function.update_of_ne same] at standing pending
      exact related.answered j q answer standing pending
  memory := by
    obtain same | ⟨j, q, op', standing, owner, pending⟩ := related.memory
    · exact .inl same
    · have other : j ≠ i := by rintro rfl; simp [absent] at standing
      exact .inr ⟨j, q, op', by simpa [other] using standing, owner, by simpa [other] using pending⟩

theorem Related.finish (related : Related code Stands Settled s t) (disciplined : Disciplined code spec Stands Settled)
    {answer : ρ} (standing : s.calls i = some p) (ended : code.answer p = some answer) :
    t.calls i = some (.answered answer) ∧
      Related code Stands Settled { s with calls := Function.update s.calls i none }
        { t with calls := Function.update t.calls i none } := by
  have free : code.holds p = .nothing := disciplined.end_free p (by simp [ended])
  have settled : t.calls i = some (.answered answer) := by
    cases pending : t.calls i with
    | none => simp [(related.idle i).mpr pending] at standing
    | some call => cases call with
      | waiting op =>
        have stands := related.waiting i p op standing pending
        simp [disciplined.unfinished _ _ _ _ stands] at ended
      | answered answer' => rw [disciplined.answers _ _ _ (related.answered i p answer' standing pending) ended]
  refine ⟨settled, ?_, fun j => ?_, fun j q op at_ pending => ?_, fun j q a at_ pending => ?_, ?_⟩
  · have before : held code s.calls i = .nothing := by simp [held, standing, free]
    rw [held_update, Option.map_none, Option.getD_none, ← before, Function.update_eq_self]
    exact related.guards
  · by_cases same : j = i
    · simp [same]
    · simpa [same] using related.idle j
  · by_cases same : j = i
    · simp [same] at at_
    · simp only [Function.update_of_ne same] at at_ pending
      exact related.waiting j q op at_ pending
  · by_cases same : j = i
    · simp [same] at at_
    · simp only [Function.update_of_ne same] at at_ pending
      exact related.answered j q a at_ pending
  · obtain same | ⟨j, q, op, at_, owner, pending⟩ := related.memory
    · exact .inl same
    · have other : j ≠ i := by rintro rfl; simp [settled] at pending
      exact .inr ⟨j, q, op, by simpa [other] using at_, owner, by simpa [other] using pending⟩

/-- A step of a call that has taken effect shows nothing and changes nothing. -/
theorem Related.settle (related : Related code Stands Settled s t) (disciplined : Disciplined code spec Stands Settled)
    {answer : ρ} (standing : s.calls i = some p) (pending : t.calls i = some (.answered answer))
    {next : μ × P × List γ} (acted : code.act p s.memory = some next) {mutex : SharedMutex ι}
    (moved : s.mutex.move i (code.holds p) (code.holds next.2.1) = some mutex) :
    next.2.2 = [] ∧
      Related code Stands Settled ⟨next.1, mutex, Function.update s.calls i (some next.2.1)⟩ t := by
  obtain ⟨kept, silent, settled⟩ := disciplined.settles _ _ _ _ (related.answered i p answer standing pending) acted
  refine ⟨silent, related.guards_act standing moved, fun j => ?_, fun j q op at_ waits => ?_, fun j q a at_ done => ?_, ?_⟩
  · by_cases same : j = i
    · simp [same, pending]
    · simpa [same] using related.idle j
  · have other : j ≠ i := by rintro rfl; simp [pending] at waits
    simp only [Function.update_of_ne other] at at_
    rw [kept]
    exact related.waiting j q op at_ waits
  · by_cases same : j = i
    · simp only [same, Function.update_self, Option.some.injEq] at at_
      rw [same, pending, Option.some.injEq, Pending.answered.injEq] at done
      rw [← at_, ← done]
      exact settled
    · simp only [Function.update_of_ne same] at at_
      exact related.answered j q a at_ done
  · rw [kept]
    obtain same | ⟨j, q, op, at_, owner, waits⟩ := related.memory
    · exact .inl same
    · have other : j ≠ i := by rintro rfl; simp [pending] at waits
      exact .inr ⟨j, q, op, by simpa [other] using at_, owner, waits⟩

omit [DecidableEq ι] in
/-- The step of a waiting call as seen from the atomic memory: the owner of
the lock works on the real memory, any other caller on what both agree on. -/
theorem Related.acts (related : Related code Stands Settled s t) (disciplined : Disciplined code spec Stands Settled)
    {op : Op} (standing : s.calls i = some p) (pending : t.calls i = some (.waiting op)) {next : μ × P × List γ}
    (acted : code.act p s.memory = some next) :
    ∃ m, (code.holds p = .exclusive ∧ m = next.1 ∨ code.holds p ≠ .exclusive ∧ m = t.memory ∧ next.1 = s.memory) ∧
      ((next.2.2 = [] ∧ Stands op t.memory next.2.1 m ∧ (code.holds next.2.1 ≠ .exclusive → m = t.memory)) ∨
        ∃ answer, spec op t.memory = some (m, answer, next.2.2) ∧ Settled answer next.2.1) := by
  have stands := related.waiting i p op standing pending
  by_cases owner : code.holds p = .exclusive
  · rw [if_pos owner] at stands
    exact ⟨next.1, .inl ⟨owner, rfl⟩, disciplined.acts op _ _ _ _ stands (absurd owner) acted⟩
  · rw [if_neg owner] at stands
    have kept := disciplined.unwritten p _ next owner acted
    have acted' : code.act p t.memory = some (t.memory, next.2) := by
      cases hold : code.holds p with
      | nothing => exact disciplined.unread p _ next hold acted _
      | exclusive => exact absurd hold owner
      | shared =>
        have same := related.memory_of_free (related.guards.no_owner (i := i) (by simp [held, standing, hold]))
        rw [← same, acted, ← kept]
    exact ⟨t.memory, .inr ⟨owner, rfl, kept⟩, disciplined.acts op _ _ _ _ stands (fun _ => rfl) acted'⟩

theorem Related.silent (related : Related code Stands Settled s t) (disciplined : Disciplined code spec Stands Settled)
    {op : Op} (standing : s.calls i = some p) (pending : t.calls i = some (.waiting op)) {next : μ × P × List γ} {m : μ}
    (work : code.holds p = .exclusive ∧ m = next.1 ∨ code.holds p ≠ .exclusive ∧ m = t.memory ∧ next.1 = s.memory)
    (stands : Stands op t.memory next.2.1 m) (given : code.holds next.2.1 ≠ .exclusive → m = t.memory)
    {mutex : SharedMutex ι} (moved : s.mutex.move i (code.holds p) (code.holds next.2.1) = some mutex) :
    Related code Stands Settled ⟨next.1, mutex, Function.update s.calls i (some next.2.1)⟩ t := by
  have holding : held code s.calls i = code.holds p := by simp [held, standing]
  have apart : held code s.calls i = .exclusive ∨ next.1 = s.memory ∧ t.memory = t.memory := by
    rw [holding]
    exact work.imp And.left fun rest => ⟨rest.2.2, rfl⟩
  refine ⟨related.guards_act standing moved, fun j => ?_, fun j q op' at_ waits => ?_, fun j q a at_ done => ?_, ?_⟩
  · by_cases same : j = i
    · simp [same, pending]
    · simpa [same] using related.idle j
  · by_cases same : j = i
    · simp only [same, Function.update_self, Option.some.injEq] at at_
      rw [same, pending, Option.some.injEq, Pending.waiting.injEq] at waits
      subst at_ waits
      split
      next owner =>
        obtain ⟨_, rfl⟩ | ⟨stood, rfl, kept⟩ := work
        · exact stands
        · have free : held code s.calls i = .nothing := by
            rw [holding]
            rw [owner] at moved
            cases hold : code.holds p <;> simp_all [SharedMutex.move]
          rw [← holding, free, owner] at moved
          have nobody := related.guards.free_of_lock moved
          rw [kept, related.memory_of_free fun j => by simp [nobody j]]
          exact stands
      next owner => exact given owner ▸ stands
    · simp only [Function.update_of_ne same] at at_
      exact related.others disciplined apart same at_ waits
  · have other : j ≠ i := by rintro rfl; simp [pending] at done
    simp only [Function.update_of_ne other] at at_
    exact related.answered j q a at_ done
  · by_cases owner : code.holds next.2.1 = .exclusive
    · exact .inr ⟨i, next.2.1, op, by simp, owner, pending⟩
    · obtain ⟨_, rfl⟩ | ⟨stood, rfl, kept⟩ := work
      · exact .inl (given owner)
      · rw [kept]
        obtain same | ⟨j, q, op', at_, holds, waits⟩ := related.memory
        · exact .inl same
        · have other : j ≠ i := by
            rintro rfl
            rw [standing, Option.some.injEq] at at_
            exact stood (at_ ▸ holds)
          exact .inr ⟨j, q, op', by simpa [other] using at_, holds, waits⟩

/-- The step in which a call takes effect is the step of the atomic object. -/
theorem Related.commit (related : Related code Stands Settled s t) (disciplined : Disciplined code spec Stands Settled)
    {op : Op} (standing : s.calls i = some p) (pending : t.calls i = some (.waiting op)) {next : μ × P × List γ} {m : μ}
    (work : code.holds p = .exclusive ∧ m = next.1 ∨ code.holds p ≠ .exclusive ∧ m = t.memory ∧ next.1 = s.memory)
    {answer : ρ} (settled : Settled answer next.2.1) {mutex : SharedMutex ι}
    (moved : s.mutex.move i (code.holds p) (code.holds next.2.1) = some mutex) :
    Related code Stands Settled ⟨next.1, mutex, Function.update s.calls i (some next.2.1)⟩
      ⟨m, Function.update t.calls i (some (.answered answer))⟩ := by
  have holding : held code s.calls i = code.holds p := by simp [held, standing]
  have apart : held code s.calls i = .exclusive ∨ next.1 = s.memory ∧ m = t.memory := by
    rw [holding]
    exact work.imp And.left fun rest => ⟨rest.2.2, rest.2.1⟩
  refine ⟨related.guards_act standing moved, fun j => ?_, fun j q op' at_ waits => ?_, fun j q a at_ done => ?_, ?_⟩
  · by_cases same : j = i
    · simp [same]
    · simpa [same] using related.idle j
  · have other : j ≠ i := by rintro rfl; simp at waits
    simp only [Function.update_of_ne other] at at_ waits
    exact related.others disciplined apart other at_ waits
  · by_cases same : j = i
    · simp only [same, Function.update_self, Option.some.injEq, Pending.answered.injEq] at at_ done
      rw [← at_, ← done]
      exact settled
    · simp only [Function.update_of_ne same] at at_ done
      exact related.answered j q a at_ done
  · obtain ⟨_, rfl⟩ | ⟨stood, rfl, kept⟩ := work
    · exact .inl rfl
    · dsimp only
      rw [kept]
      obtain same | ⟨j, q, op', at_, holds, waits⟩ := related.memory
      · exact .inl same
      · have other : j ≠ i := by
          rintro rfl
          rw [standing, Option.some.injEq] at at_
          exact stood (at_ ▸ holds)
        exact .inr ⟨j, q, op', by simpa [other] using at_, holds, by simpa [other] using waits⟩

/-- An object whose calls keep to its lock is the atomic object, as far as
can be seen from outside. -/
theorem Disciplined.simulates (disciplined : Disciplined code spec Stands Settled) :
    Transducer.Simulates (step (ι := ι) code) (Atomic.step spec) (Related code Stands Settled) := by
  intro s t label s' out related moved
  cases label with
  | invoke i op =>
    obtain ⟨absent, rfl, rfl⟩ := step_invoke moved
    have absent' := (related.idle i).mp absent
    exact ⟨[.invoke i op], _, Transducer.run_single (by simp only [Atomic.step, absent']),
      related.invoke disciplined absent⟩
  | finish i =>
    obtain ⟨p, answer, standing, ended, rfl, rfl⟩ := step_finish moved
    obtain ⟨settled, next⟩ := related.finish disciplined standing ended
    exact ⟨[.finish i], _, Transducer.run_single (by simp only [Atomic.step, settled]), next⟩
  | act i =>
    obtain ⟨p, next, mutex, standing, acted, locked, rfl, rfl⟩ := step_act moved
    cases pending : t.calls i with
    | none => simp [(related.idle i).mpr pending] at standing
    | some call => cases call with
      | answered answer =>
        obtain ⟨silent, after⟩ := related.settle disciplined standing pending acted locked
        exact ⟨[], t, by rw [silent]; rfl, after⟩
      | waiting op =>
        obtain ⟨m, work, ⟨silent, stands, given⟩ | ⟨answer, performed, settled⟩⟩ :=
          related.acts disciplined standing pending acted
        · exact ⟨[], t, by rw [silent]; rfl, related.silent disciplined standing pending work stands given locked⟩
        · refine ⟨[.act i], _, Transducer.run_single ?_, related.commit disciplined standing pending work settled locked⟩
          simp only [Atomic.step, pending, performed, Option.map_some]

omit [DecidableEq ι] in
/-- No call that is under way is at a step that is undefined. -/
theorem Related.defined (related : Related code Stands Settled s t) (disciplined : Disciplined code spec Stands Settled)
    (standing : s.calls i = some p) (under : code.answer p = none)
    (settled : code.holds p = .nothing → s.memory = t.memory) : code.act p s.memory ≠ none := by
  cases pending : t.calls i with
  | none => simp [(related.idle i).mpr pending] at standing
  | some call => cases call with
    | answered answer => exact disciplined.settled_defined answer p _ (related.answered i p answer standing pending) under
    | waiting op =>
      have stands := related.waiting i p op standing pending
      by_cases owner : code.holds p = .exclusive
      · rw [if_pos owner] at stands
        exact disciplined.defined op _ p _ stands (absurd owner)
      · rw [if_neg owner] at stands
        have same : s.memory = t.memory := by
          cases hold : code.holds p with
          | nothing => exact settled hold
          | exclusive => exact absurd hold owner
          | shared => exact related.memory_of_free (related.guards.no_owner (i := i) (by simp [held, standing, hold]))
        rw [same]
        exact disciplined.defined op _ p _ stands fun _ => rfl

/-- A caller that holds the lock, or for which it is free, is not kept waiting. -/
theorem Related.enabled (related : Related code Stands Settled s t) (disciplined : Disciplined code spec Stands Settled)
    (standing : s.calls i = some p) (under : code.answer p = none)
    (turn : code.holds p ≠ .nothing ∨ ∀ j, held code s.calls j = .nothing) : step code s (.act i) ≠ none := by
  have settled : code.holds p = .nothing → s.memory = t.memory := fun free =>
    related.memory_of_free fun j => by simp [turn.resolve_left (absurd free) j]
  obtain ⟨next, acted⟩ := Option.ne_none_iff_exists'.mp (related.defined disciplined standing under settled)
  have moves : s.mutex.move i (code.holds p) (code.holds next.2.1) ≠ none := by
    have upgrade := disciplined.no_upgrade p _ next acted
    cases hold : code.holds p with
    | nothing =>
      have free := turn.resolve_left (absurd hold)
      have lone : s.mutex.exclusive = none := Option.eq_none_iff_forall_ne_some.mpr fun j owner => by
        simpa [free j] using (related.guards.exclusive j).mp owner
      have empty : s.mutex.shared = ∅ := Finset.eq_empty_iff_forall_notMem.mpr fun j inside => by
        simpa [free j] using (related.guards.shared j).mp inside
      cases code.holds next.2.1 <;> simp [SharedMutex.move, SharedMutex.lock, SharedMutex.lockShared, lone, empty]
    | shared =>
      rw [hold] at upgrade
      rcases upgrade with impossible | free | stays
      · contradiction
      · simp [free, SharedMutex.move]
      · simp [stays, SharedMutex.move]
    | exclusive =>
      rw [hold] at upgrade
      rcases upgrade with impossible | free | stays
      · contradiction
      · simp [free, SharedMutex.move]
      · simp [stays, SharedMutex.move]
  obtain ⟨mutex, moved⟩ := Option.ne_none_iff_exists'.mp moves
  simp [step, standing, acted, moved]

/-- A call under way can go on, unless another one holds the lock and can go on itself. -/
theorem Related.turn (related : Related code Stands Settled s t) (disciplined : Disciplined code spec Stands Settled)
    (called : s.calls i ≠ none) : ∃ j, (j = i ∨ held code s.calls j ≠ .nothing) ∧
      (step (γ := γ) code s (.act j) ≠ none ∨ step (γ := γ) code s (.finish j) ≠ none) := by
  by_cases holder : ∃ j, held code s.calls j ≠ .nothing
  · obtain ⟨j, holds⟩ := holder
    cases standing : s.calls j with
    | none => simp [held, standing] at holds
    | some p =>
      have atP : code.holds p ≠ .nothing := by simpa [held, standing] using holds
      have under : code.answer p = none := by
        by_contra ended
        exact atP (disciplined.end_free p ended)
      exact ⟨j, .inr holds, .inl (related.enabled disciplined standing under (.inl atP))⟩
  · have free : ∀ j, held code s.calls j = .nothing := fun j => by_contra fun holds => holder ⟨j, holds⟩
    obtain ⟨p, standing⟩ := Option.ne_none_iff_exists'.mp called
    cases ended : code.answer p with
    | none => exact ⟨i, .inl rfl, .inl (related.enabled disciplined standing ended (.inr free))⟩
    | some answer => exact ⟨i, .inl rfl, .inr (by simp [step, standing, ended])⟩

/-- As long as a call is under way, some call can go on. -/
theorem Related.progress (related : Related code Stands Settled s t) (disciplined : Disciplined code spec Stands Settled)
    (busy : ∃ i, s.calls i ≠ none) : ∃ i label, (label = .act i ∨ label = .finish i) ∧ step (γ := γ) code s label ≠ none := by
  obtain ⟨i, called⟩ := busy
  obtain ⟨j, _, acts | finishes⟩ := related.turn disciplined called
  · exact ⟨j, _, .inl rfl, acts⟩
  · exact ⟨j, _, .inr rfl, finishes⟩

end Simulation

end LockedObject
