import Mathlib.Data.List.Basic

namespace LabelledRun

variable {σ α : Type*}

/-- The state after performing the labels in order. A label the current
state does not enable ends the run: there is no state after it. -/
def exec (step : σ → α → Option σ) (start : σ) (labels : List α) : Option σ :=
  labels.foldlM step start

/-- Every label of the run meets `guard` in the state that performs it. -/
def Guarded (step : σ → α → Option σ) (guard : σ → α → Prop) (start : σ) (labels : List α) : Prop :=
  ∀ before label after s, labels = before ++ label :: after → exec step start before = some s →
    guard s label

/-- Every state the run passes through, the first and the last included,
has the property. -/
def Always (step : σ → α → Option σ) (property : σ → Prop) (start : σ) (labels : List α) : Prop :=
  ∀ before after s, labels = before ++ after → exec step start before = some s → property s

@[simp] theorem exec_nil (step : σ → α → Option σ) (start : σ) : exec step start [] = some start := rfl

@[simp] theorem exec_cons (step : σ → α → Option σ) (start : σ) (label : α) (labels : List α) :
    exec step start (label :: labels) = (step start label).bind fun s => exec step s labels := by
  simp [exec, List.foldlM_cons]

theorem exec_cons_of {step : σ → α → Option σ} {start s last : σ} {label : α} {labels : List α}
    (moved : step start label = some s) (rest : exec step s labels = some last) :
    exec step start (label :: labels) = some last := by rw [exec_cons, moved, Option.bind_some, rest]

theorem exec_cons_split {step : σ → α → Option σ} {start last : σ} {label : α} {labels : List α}
    (run : exec step start (label :: labels) = some last) :
    ∃ s, step start label = some s ∧ exec step s labels = some last := by
  rw [exec_cons] at run
  exact Option.bind_eq_some_iff.mp run

theorem exec_append (step : σ → α → Option σ) (start : σ) (first second : List α) :
    exec step start (first ++ second) = (exec step start first).bind fun s => exec step s second := by
  simp [exec, List.foldlM_append]

theorem exec_trans {step : σ → α → Option σ} {start middle : σ} {first second : List α}
    (run : exec step start first = some middle) :
    exec step start (first ++ second) = exec step middle second := by
  rw [exec_append, run, Option.bind_some]

theorem exec_snoc_split {step : σ → α → Option σ} {start last : σ} {labels : List α} {label : α}
    (run : exec step start (labels ++ [label]) = some last) :
    ∃ former, exec step start labels = some former ∧ step former label = some last := by
  rw [exec_append] at run
  obtain ⟨former, first, rest⟩ := Option.bind_eq_some_iff.mp run
  obtain ⟨s, moved, done⟩ := exec_cons_split rest
  exact ⟨former, first, Option.some.inj done ▸ moved⟩

theorem Guarded.tail {step : σ → α → Option σ} {guard : σ → α → Prop} {start s : σ} {label : α}
    {labels : List α} (guarded : Guarded step guard start (label :: labels))
    (moved : step start label = some s) : Guarded step guard s labels := by
  intro before next after t split run
  refine guarded (label :: before) next after t (by rw [split, List.cons_append]) ?_
  simp only [exec_cons, moved, Option.bind_some, run]

theorem Guarded.head {step : σ → α → Option σ} {guard : σ → α → Prop} {start : σ} {label : α}
    {labels : List α} (guarded : Guarded step guard start (label :: labels)) : guard start label :=
  guarded [] label labels start rfl rfl

@[simp] theorem guarded_nil (step : σ → α → Option σ) (guard : σ → α → Prop) (start : σ) :
    Guarded step guard start [] := by
  intro before label after s split
  simp at split

theorem guarded_cons {step : σ → α → Option σ} {guard : σ → α → Prop} {start s : σ} {label : α}
    {labels : List α} (met : guard start label) (moved : step start label = some s)
    (rest : Guarded step guard s labels) : Guarded step guard start (label :: labels) := by
  intro before next after t split run
  cases before with
  | nil =>
    obtain ⟨rfl, rfl⟩ := List.cons.inj split
    cases Option.some.inj run
    exact met
  | cons first before =>
    obtain ⟨rfl, cut⟩ := List.cons.inj split
    rw [exec_cons, moved, Option.bind_some] at run
    exact rest before next after t cut run

theorem Guarded.front {step : σ → α → Option σ} {guard : σ → α → Prop} {start : σ}
    {first second : List α} (guarded : Guarded step guard start (first ++ second)) :
    Guarded step guard start first := by
  intro before label after t split run
  exact guarded before label (after ++ second) t (by rw [split]; simp) run

theorem Guarded.mono {step : σ → α → Option σ} {strong weak : σ → α → Prop} {start : σ}
    {labels : List α} (guarded : Guarded step strong start labels)
    (implies : ∀ s label, strong s label → weak s label) : Guarded step weak start labels :=
  fun before label after s split run => implies s label (guarded before label after s split run)

theorem Guarded.and {step : σ → α → Option σ} {left right : σ → α → Prop} {start : σ} {labels : List α}
    (first : Guarded step left start labels) (second : Guarded step right start labels) :
    Guarded step (fun s label => left s label ∧ right s label) start labels :=
  fun before label after s split run => ⟨first before label after s split run, second before label after s split run⟩

theorem guarded_of_forall_mem (step : σ → α → Option σ) {allowed : α → Prop} {labels : List α}
    (all : ∀ label ∈ labels, allowed label) (start : σ) : Guarded step (fun _ => allowed) start labels :=
  fun before label after _ split _ => all label (by simp [split])

theorem Always.guarded {step : σ → α → Option σ} {property : σ → Prop} {start : σ} {labels : List α}
    (always : Always step property start labels) : Guarded step (fun s _ => property s) start labels :=
  fun before label after s split run => always before (label :: after) s split run

theorem Always.next {step : σ → α → Option σ} {property : σ → Prop} {start s t : σ} {label : α}
    {before after : List α} (always : Always step property start (before ++ label :: after))
    (first : exec step start before = some s) (moved : step s label = some t) : property t := by
  have reached : exec step start (before ++ [label]) = some t := by
    rw [exec_trans first, exec_cons, moved]
    rfl
  exact always (before ++ [label]) after t (by simp) reached

theorem always_nil {step : σ → α → Option σ} {property : σ → Prop} {start : σ} (met : property start) :
    Always step property start [] := by
  intro before after s split run
  obtain ⟨rfl, rfl⟩ := List.append_eq_nil_iff.mp split.symm
  cases Option.some.inj run
  exact met

theorem always_cons {step : σ → α → Option σ} {property : σ → Prop} {start s : σ} {label : α} {labels : List α}
    (met : property start) (moved : step start label = some s) (rest : Always step property s labels) :
    Always step property start (label :: labels) := by
  intro before after t split run
  cases before with
  | nil =>
    cases Option.some.inj run
    exact met
  | cons first before =>
    obtain ⟨rfl, cut⟩ := List.cons.inj split
    rw [exec_cons, moved, Option.bind_some] at run
    exact rest before after t cut run

/-- The induction rule for a run whose steps all meet a guard: what one
guarded step preserves, the whole run preserves. -/
theorem exec_guarded_invariant {step : σ → α → Option σ} {guard : σ → α → Prop} {invariant : σ → Prop}
    (preserved : ∀ s label t, invariant s → guard s label → step s label = some t → invariant t)
    {start last : σ} {labels : List α} (run : exec step start labels = some last)
    (guarded : Guarded step guard start labels) (initial : invariant start) : invariant last := by
  induction labels generalizing start with
  | nil => cases Option.some.inj run; exact initial
  | cons label labels ih =>
    obtain ⟨s, moved, rest⟩ := exec_cons_split run
    exact ih rest (guarded.tail moved) (preserved _ _ _ initial guarded.head moved)

/-- The same rule without a guard: an inductive invariant holds after every
run from a state that has it. -/
theorem exec_invariant {step : σ → α → Option σ} {invariant : σ → Prop}
    (preserved : ∀ s label t, invariant s → step s label = some t → invariant t)
    {start last : σ} {labels : List α} (run : exec step start labels = some last)
    (initial : invariant start) : invariant last := by
  have free : Guarded step (fun _ _ => True) start labels := fun _ _ _ _ _ _ => trivial
  exact exec_guarded_invariant (fun s label t inv _ => preserved s label t inv) run free initial

/-- What a step with an allowed label preserves, a run of allowed labels preserves. -/
theorem exec_invariant_of_forall_mem {step : σ → α → Option σ} {allowed : α → Prop} {invariant : σ → Prop}
    (preserved : ∀ s label t, invariant s → allowed label → step s label = some t → invariant t)
    {start last : σ} {labels : List α} (run : exec step start labels = some last)
    (all : ∀ label ∈ labels, allowed label) (initial : invariant start) : invariant last :=
  exec_guarded_invariant preserved run (guarded_of_forall_mem step all start) initial

theorem Always.mono {step : σ → α → Option σ} {strong weak : σ → Prop} {start : σ} {labels : List α}
    (always : Always step strong start labels) (implies : ∀ s, strong s → weak s) : Always step weak start labels :=
  fun before after s split run => implies s (always before after s split run)

/-- A run of labels each of which takes something off a measure is no longer
than the measure was at its start. -/
theorem exec_length_le_of_measure {step : σ → α → Option σ} {allowed : α → Prop} {invariant : σ → Prop}
    (measure : σ → Nat)
    (preserved : ∀ s label t, invariant s → allowed label → step s label = some t → invariant t ∧ measure t < measure s)
    {start last : σ} {labels : List α} (run : exec step start labels = some last)
    (all : ∀ label ∈ labels, allowed label) (initial : invariant start) :
    labels.length + measure last ≤ measure start := by
  induction labels generalizing start with
  | nil =>
    obtain rfl := Option.some.inj run
    simp
  | cons label labels ih =>
    obtain ⟨s, moved, rest⟩ := exec_cons_split run
    obtain ⟨still, less⟩ := preserved _ _ _ initial (all label List.mem_cons_self) moved
    have later := ih rest (fun other member => all other (List.mem_cons_of_mem _ member)) still
    rw [List.length_cons]
    omega

/-- What every guarded step preserves holds all along a guarded run. -/
theorem Guarded.always {step : σ → α → Option σ} {guard : σ → α → Prop} {invariant : σ → Prop} {start : σ}
    {labels : List α} (guarded : Guarded step guard start labels)
    (preserved : ∀ s label t, invariant s → guard s label → step s label = some t → invariant t)
    (initial : invariant start) : Always step invariant start labels := by
  intro before after s split first
  rw [split] at guarded
  exact exec_guarded_invariant preserved first guarded.front initial

/-- If a step that misses its guard breaks the property, then a run along
which the property holds meets the guard at every step. -/
theorem Always.guarded_of_broken {step : σ → α → Option σ} {guard : σ → α → Prop} {property : σ → Prop}
    (broken : ∀ s label t, property s → ¬guard s label → step s label = some t → ¬property t)
    {start last : σ} {labels : List α} (run : exec step start labels = some last)
    (always : Always step property start labels) : Guarded step guard start labels := by
  intro before label after s split first
  by_contra missed
  subst split
  rw [exec_trans first] at run
  obtain ⟨t, moved, _⟩ := exec_cons_split run
  exact broken s label t (always before _ s rfl first) missed moved (always.next first moved)

theorem Always.tail {step : σ → α → Option σ} {property : σ → Prop} {start s : σ} {label : α} {labels : List α}
    (always : Always step property start (label :: labels)) (moved : step start label = some s) :
    Always step property s labels := by
  intro before after t split run
  refine always (label :: before) after t (by rw [split, List.cons_append]) ?_
  simp only [exec_cons, moved, Option.bind_some, run]

/-- The same for a guard whose steps keep an invariant: it may be used that
the invariant has held so far. -/
theorem Always.guarded_of_invariant {step : σ → α → Option σ} {guard : σ → α → Prop} {invariant property : σ → Prop}
    (kept : ∀ s label t, invariant s → guard s label → step s label = some t → invariant t)
    (broken : ∀ s label t, invariant s → ¬guard s label → step s label = some t → ¬property t)
    {start last : σ} {labels : List α} (run : exec step start labels = some last) (initial : invariant start)
    (always : Always step property start labels) : Guarded step guard start labels := by
  induction labels generalizing start with
  | nil => exact guarded_nil step guard start
  | cons label labels ih =>
    obtain ⟨s, moved, rest⟩ := exec_cons_split run
    have whole : Always step property start ([] ++ label :: labels) := always
    have holds : property s := whole.next rfl moved
    have met : guard start label := by
      by_contra missed
      exact broken start label s initial missed moved holds
    exact guarded_cons met moved (ih rest (kept start label s initial met moved) (always.tail moved))

/-- A property that an invariant of the guarded steps implies, and that a
step outside the guard breaks, holds all along a run exactly when every
step meets the guard. -/
theorem always_iff_guarded_of_invariant {step : σ → α → Option σ} {guard : σ → α → Prop}
    {invariant property : σ → Prop} (implies : ∀ s, invariant s → property s)
    (kept : ∀ s label t, invariant s → guard s label → step s label = some t → invariant t)
    (broken : ∀ s label t, invariant s → ¬guard s label → step s label = some t → ¬property t)
    {start last : σ} {labels : List α} (run : exec step start labels = some last) (initial : invariant start) :
    Always step property start labels ↔ Guarded step guard start labels := by
  constructor
  · intro always
    exact always.guarded_of_invariant kept broken run initial
  · intro guarded
    exact (guarded.always kept initial).mono implies

/-- If guarded steps keep the property too, it holds all along a run exactly
when every step meets its guard. -/
theorem always_iff_guarded {step : σ → α → Option σ} {guard : σ → α → Prop} {property : σ → Prop}
    (kept : ∀ s label t, property s → guard s label → step s label = some t → property t)
    (broken : ∀ s label t, property s → ¬guard s label → step s label = some t → ¬property t)
    {start last : σ} {labels : List α} (run : exec step start labels = some last)
    (initial : property start) :
    Always step property start labels ↔ Guarded step guard start labels := by
  constructor
  · intro always
    exact always.guarded_of_broken broken run
  · intro guarded
    exact guarded.always kept initial

end LabelledRun
