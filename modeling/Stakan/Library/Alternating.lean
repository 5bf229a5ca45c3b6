import Mathlib.Data.List.Basic

namespace Alternating

variable {α : Type*}

/-- The elements that open something and the others take turns, and one that opens comes first. -/
def Alternates (opens : α → Prop) (l : List α) : Prop := ∀ i a, l[i]? = some a → (opens a ↔ i % 2 = 0)

/-- As the alternation counts, the last element has opened something. -/
def isOpen (l : List α) : Bool := l.length % 2 == 1

theorem isOpen_eq_false {l : List α} : isOpen l = false ↔ l.length % 2 = 0 := by
  rw [isOpen, beq_eq_false_iff_ne]
  omega

theorem isOpen_snoc (l : List α) (a : α) : isOpen (l ++ [a]) = !isOpen l := by
  rw [Bool.eq_iff_iff, Bool.not_eq_true', isOpen_eq_false, isOpen, List.length_append, List.length_singleton,
    beq_iff_eq]
  omega

theorem alternates_nil (opens : α → Prop) : Alternates opens [] := by
  intro i a at_i
  rw [List.getElem?_nil] at at_i
  contradiction

/-- One more element keeps the alternation if it is its turn. -/
theorem alternates_snoc {opens : α → Prop} {l : List α} {a : α} :
    Alternates opens (l ++ [a]) ↔ Alternates opens l ∧ (opens a ↔ isOpen l = false) := by
  rw [isOpen_eq_false]
  constructor
  · intro alternates
    refine ⟨fun i b at_i => alternates i b ?_, alternates _ a (by simp)⟩
    rw [List.getElem?_append_left (List.getElem?_eq_some_iff.mp at_i).1, at_i]
  · intro ⟨alternates, last⟩ i b at_i
    by_cases old : i < l.length
    · rw [List.getElem?_append_left old] at at_i
      exact alternates i b at_i
    · rw [List.getElem?_append_right (by omega)] at at_i
      have here : i - l.length < 1 := (List.getElem?_eq_some_iff.mp at_i).1
      have same : i = l.length := by omega
      rw [same, Nat.sub_self] at at_i
      cases Option.some.inj at_i
      rw [same]
      exact last

end Alternating
