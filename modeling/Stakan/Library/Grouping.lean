import Mathlib.Algebra.BigOperators.Group.List.Basic
import Mathlib.Data.List.Dedup

namespace Grouping

variable {α β : Type*} [DecidableEq β]

/-- The elements with key `b`, in list order. -/
def group (key : α → β) (l : List α) (b : β) : List α := l.filter fun a => key a == b

/-- The groups of keys that cover a list make it up, element for element. -/
theorem perm_flatMap_group {key : α → β} {keys : List β} (distinct : keys.Nodup) {l : List α}
    (covered : ∀ a ∈ l, key a ∈ keys) : (keys.flatMap (group key l)).Perm l := by
  induction keys generalizing l with
  | nil => rw [List.eq_nil_iff_forall_not_mem.mpr fun a member => List.not_mem_nil (covered a member)]; rfl
  | cons b keys ih =>
    obtain ⟨absent, distinct⟩ := List.nodup_cons.mp distinct
    let rest := l.filter fun a => !(key a == b)
    have others : keys.flatMap (group key l) = keys.flatMap (group key rest) := by
      refine List.flatMap_congr fun c member => ?_
      have different : c ≠ b := fun same => absent (same ▸ member)
      rw [group, group, List.filter_filter]
      refine List.filter_congr fun a _ => ?_
      by_cases here : key a = c <;> simp [here, different]
    have inRest : ∀ a ∈ rest, key a ∈ keys := by
      intro a member
      obtain ⟨inside, other⟩ := List.mem_filter.mp member
      exact (List.mem_cons.mp (covered a inside)).resolve_left (by simpa using other)
    rw [List.flatMap_cons, others]
    exact ((ih distinct inRest).append_left _).trans (List.filter_append_perm _ l)

/-- Every list is made up of the groups of the keys that occur in it. -/
theorem perm_flatMap_dedup (key : α → β) (l : List α) :
    ((l.map key).dedup.flatMap (group key l)).Perm l :=
  perm_flatMap_group (List.nodup_dedup _) fun _ member => List.mem_dedup.mpr (List.mem_map_of_mem member)

/-- A sum over a list is the sum of the sums over its groups. -/
theorem sum_groups {γ : Type*} [AddCommMonoid γ] (key : α → β) (l : List α) (f : α → γ) :
    ((l.map key).dedup.map fun b => ((group key l b).map f).sum).sum = (l.map f).sum := by
  rw [← ((perm_flatMap_dedup key l).map f).sum_eq, List.flatMap_def, List.map_flatten, List.sum_flatten,
    List.map_map, List.map_map]
  rfl

end Grouping
