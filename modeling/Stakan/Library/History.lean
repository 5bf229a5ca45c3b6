import Mathlib.Data.List.Induction

namespace History

variable {α : Type*}

/-- Some label of the history has begun it, and every later one keeps it up.
A label is judged with the labels before it. -/
def Since (begins : List α → α → Prop) (keeps : α → Prop) (labels : List α) : Prop :=
  ∃ before label after, labels = before ++ label :: after ∧ begins before label ∧ ∀ later ∈ after, keeps later

theorem not_since_nil (begins : List α → α → Prop) (keeps : α → Prop) : ¬Since begins keeps [] := by
  rintro ⟨before, label, after, split, _⟩
  simp at split

theorem since_begin {begins : List α → α → Prop} {before : List α} {label : α} (begun : begins before label)
    (keeps : α → Prop) : Since begins keeps (before ++ [label]) :=
  ⟨before, label, [], rfl, begun, fun _ member => by simp at member⟩

/-- The newest label begins it, or keeps up what has been begun. -/
theorem since_snoc {begins : List α → α → Prop} {keeps : α → Prop} {labels : List α} {label : α} :
    Since begins keeps (labels ++ [label]) ↔ begins labels label ∨ keeps label ∧ Since begins keeps labels := by
  constructor
  · rintro ⟨before, first, after, split, begun, kept⟩
    cases after using List.reverseRecOn with
    | nil =>
      obtain ⟨rfl, same⟩ := List.append_inj' split rfl
      exact Or.inl ((List.cons.inj same).1 ▸ begun)
    | append_singleton after last =>
      rw [← List.cons_append, ← List.append_assoc] at split
      obtain ⟨rfl, same⟩ := List.append_inj' split rfl
      obtain ⟨rfl, _⟩ := List.cons.inj same
      refine Or.inr ⟨kept label (by simp), before, first, after, rfl, begun, fun later member => ?_⟩
      exact kept later (List.mem_append_left _ member)
  · rintro (begun | ⟨keep, before, first, after, rfl, begun, kept⟩)
    · exact since_begin begun keeps
    · refine ⟨before, first, after ++ [label], by simp, begun, fun later member => ?_⟩
      rcases List.mem_append.mp member with old | new
      · exact kept later old
      · rwa [List.mem_singleton.mp new]

end History
