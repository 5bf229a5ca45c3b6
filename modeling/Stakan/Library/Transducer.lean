import Stakan.Library.LabelledRun

namespace Transducer

variable {σ τ σ' τ' α β α' β' γ γ' : Type*}

/-- The state after performing the labels in order, with all that the steps
put out. A label the current state does not enable ends the run. -/
def run (step : σ → α → Option (σ × List γ)) : σ → List α → Option (σ × List γ)
  | s, [] => some (s, [])
  | s, label :: labels =>
    (step s label).bind fun first => (run step first.1 labels).map fun rest => (rest.1, first.2 ++ rest.2)

theorem run_cons_split {step : σ → α → Option (σ × List γ)} {start last : σ} {label : α} {labels : List α}
    {out : List γ} (whole : run step start (label :: labels) = some (last, out)) :
    ∃ s first rest, step start label = some (s, first) ∧ run step s labels = some (last, rest) ∧
      out = first ++ rest := by
  obtain ⟨⟨s, first⟩, moved, others⟩ := Option.bind_eq_some_iff.mp whole
  obtain ⟨⟨last', rest⟩, ran, same⟩ := Option.map_eq_some_iff.mp others
  obtain ⟨rfl, rfl⟩ := Prod.mk.inj same
  exact ⟨s, first, rest, moved, ran, rfl⟩

theorem run_append {step : σ → α → Option (σ × List γ)} {start middle last : σ} {front back : List α}
    {first second : List γ} (before : run step start front = some (middle, first))
    (after : run step middle back = some (last, second)) :
    run step start (front ++ back) = some (last, first ++ second) := by
  induction front generalizing start first with
  | nil =>
    obtain ⟨rfl, rfl⟩ := Prod.mk.inj (Option.some.inj before)
    exact after
  | cons label front ih =>
    obtain ⟨s, out, rest, moved, ran, rfl⟩ := run_cons_split before
    rw [List.cons_append, run, moved, Option.bind_some, ih ran, Option.map_some, List.append_assoc]

theorem run_single {step : σ → α → Option (σ × List γ)} {start last : σ} {label : α} {out : List γ}
    (moved : step start label = some (last, out)) : run step start [label] = some (last, out) := by
  rw [run, moved, Option.bind_some, run, Option.map_some, List.append_nil]

/-- The states of a run, whatever is put out on the way. -/
theorem exec_of_run {step : σ → α → Option (σ × List γ)} {start last : σ} {labels : List α} {out : List γ}
    (whole : run step start labels = some (last, out)) :
    LabelledRun.exec (fun s label => (step s label).map Prod.fst) start labels = some last := by
  induction labels generalizing start out with
  | nil =>
    obtain ⟨rfl, rfl⟩ := Prod.mk.inj (Option.some.inj whole)
    rfl
  | cons label labels ih =>
    obtain ⟨s, first, rest, moved, ran, _⟩ := run_cons_split whole
    exact LabelledRun.exec_cons_of (by rw [moved, Option.map_some]) (ih ran)

/-- What a step with an allowed label preserves, a run of allowed labels preserves. -/
theorem run_invariant {step : σ → α → Option (σ × List γ)} {allowed : α → Prop} {invariant : σ → Prop}
    (preserved : ∀ s label t out, invariant s → allowed label → step s label = some (t, out) → invariant t)
    {start last : σ} {labels : List α} {out : List γ} (whole : run step start labels = some (last, out))
    (all : ∀ label ∈ labels, allowed label) (initial : invariant start) : invariant last := by
  induction labels generalizing start out with
  | nil => cases Option.some.inj whole; exact initial
  | cons label labels ih =>
    obtain ⟨s, first, rest, moved, ran, _⟩ := run_cons_split whole
    refine ih ran (fun other member => all other (List.mem_cons_of_mem _ member)) ?_
    exact preserved _ _ _ _ initial (all label List.mem_cons_self) moved

/-- The same for a relation with all that has been put out so far. -/
theorem run_history {step : σ → α → Option (σ × List γ)} {related : σ → List γ → Prop}
    (preserved : ∀ s label t past out, related s past → step s label = some (t, out) → related t (past ++ out))
    {start last : σ} {labels : List α} {past out : List γ} (whole : run step start labels = some (last, out))
    (initial : related start past) : related last (past ++ out) := by
  induction labels generalizing start past out with
  | nil =>
    obtain ⟨rfl, rfl⟩ := Prod.mk.inj (Option.some.inj whole)
    rwa [List.append_nil]
  | cons label labels ih =>
    obtain ⟨s, first, rest, moved, ran, rfl⟩ := run_cons_split whole
    rw [← List.append_assoc]
    exact ih ran (preserved _ _ _ _ _ initial moved)

/-- Whatever the first machine does in one step, the second one can do in
some number of steps that put out the same. -/
def Simulates (step : σ → α → Option (σ × List γ)) (step' : τ → β → Option (τ × List γ))
    (related : σ → τ → Prop) : Prop :=
  ∀ s t label s' out, related s t → step s label = some (s', out) →
    ∃ labels t', run step' t labels = some (t', out) ∧ related s' t'

/-- Every output of the first machine is an output of the second one. -/
theorem Simulates.run {step : σ → α → Option (σ × List γ)} {step' : τ → β → Option (τ × List γ)}
    {related : σ → τ → Prop} (simulates : Simulates step step' related) {start last : σ} {start' : τ}
    {labels : List α} {out : List γ} (whole : run step start labels = some (last, out))
    (initial : related start start') :
    ∃ labels' last', Transducer.run step' start' labels' = some (last', out) ∧ related last last' := by
  induction labels generalizing start start' out with
  | nil =>
    obtain ⟨rfl, rfl⟩ := Prod.mk.inj (Option.some.inj whole)
    exact ⟨[], start', rfl, initial⟩
  | cons label labels ih =>
    obtain ⟨s, first, rest, moved, ran, rfl⟩ := run_cons_split whole
    obtain ⟨front, middle, matched, next⟩ := simulates _ _ _ _ _ initial moved
    obtain ⟨back, last', followed, final⟩ := ih ran next
    exact ⟨front ++ back, last', run_append matched followed, final⟩

/-- Two machines side by side, each moved by labels of its own. The output
tells which one it comes from. -/
def parallel (left : σ → α → Option (σ × List γ)) (right : σ' → α' → Option (σ' × List γ')) :
    σ × σ' → α ⊕ α' → Option ((σ × σ') × List (γ ⊕ γ'))
  | (s, s'), .inl label => (left s label).map fun next => ((next.1, s'), next.2.map .inl)
  | (s, s'), .inr label => (right s' label).map fun next => ((s, next.1), next.2.map .inr)

section Parallel

variable {left : σ → α → Option (σ × List γ)} {right : σ' → α' → Option (σ' × List γ')}

theorem run_inl {start last : σ} {labels : List α} {out : List γ} (whole : run left start labels = some (last, out))
    (idle : σ') :
    run (parallel left right) (start, idle) (labels.map .inl) = some ((last, idle), out.map .inl) := by
  induction labels generalizing start out with
  | nil =>
    obtain ⟨rfl, rfl⟩ := Prod.mk.inj (Option.some.inj whole)
    rfl
  | cons label labels ih =>
    obtain ⟨s, first, rest, moved, ran, rfl⟩ := run_cons_split whole
    rw [List.map_cons, run, parallel, moved, Option.map_some, Option.bind_some, ih ran, Option.map_some,
      List.map_append]

theorem run_inr {start last : σ'} {labels : List α'} {out : List γ'}
    (whole : run right start labels = some (last, out)) (idle : σ) :
    run (parallel left right) (idle, start) (labels.map .inr) = some ((idle, last), out.map .inr) := by
  induction labels generalizing start out with
  | nil =>
    obtain ⟨rfl, rfl⟩ := Prod.mk.inj (Option.some.inj whole)
    rfl
  | cons label labels ih =>
    obtain ⟨s, first, rest, moved, ran, rfl⟩ := run_cons_split whole
    rw [List.map_cons, run, parallel, moved, Option.map_some, Option.bind_some, ih ran, Option.map_some,
      List.map_append]

theorem parallel_inl {s t : σ × σ'} {label : α} {out : List (γ ⊕ γ')}
    (moved : parallel left right s (.inl label) = some (t, out)) :
    ∃ put, left s.1 label = some (t.1, put) ∧ t.2 = s.2 ∧ out = put.map .inl := by
  obtain ⟨⟨next, put⟩, step, same⟩ := Option.map_eq_some_iff.mp moved
  obtain ⟨rfl, rfl⟩ := Prod.mk.inj same
  exact ⟨put, step, rfl, rfl⟩

theorem parallel_inr {s t : σ × σ'} {label : α'} {out : List (γ ⊕ γ')}
    (moved : parallel left right s (.inr label) = some (t, out)) :
    ∃ put, right s.2 label = some (t.2, put) ∧ t.1 = s.1 ∧ out = put.map .inr := by
  obtain ⟨⟨next, put⟩, step, same⟩ := Option.map_eq_some_iff.mp moved
  obtain ⟨rfl, rfl⟩ := Prod.mk.inj same
  exact ⟨put, step, rfl, rfl⟩

/-- Simulations of the parts make up a simulation of the whole. -/
theorem Simulates.parallel {left' : τ → β → Option (τ × List γ)} {right' : τ' → β' → Option (τ' × List γ')}
    {related : σ → τ → Prop} {related' : σ' → τ' → Prop} (first : Simulates left left' related)
    (second : Simulates right right' related') :
    Simulates (Transducer.parallel left right) (Transducer.parallel left' right')
      (fun s t => related s.1 t.1 ∧ related' s.2 t.2) := by
  rintro s t (label | label) u out ⟨atLeft, atRight⟩ moved
  · obtain ⟨put, step, idle, rfl⟩ := parallel_inl moved
    obtain ⟨labels, next, ran, kept⟩ := first _ _ _ _ _ atLeft step
    exact ⟨labels.map .inl, (next, t.2), run_inl ran t.2, kept, idle ▸ atRight⟩
  · obtain ⟨put, step, idle, rfl⟩ := parallel_inr moved
    obtain ⟨labels, next, ran, kept⟩ := second _ _ _ _ _ atRight step
    exact ⟨labels.map .inr, (t.1, next), run_inr ran t.1, idle ▸ atLeft, kept⟩

end Parallel

end Transducer
