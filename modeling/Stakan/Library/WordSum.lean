import Mathlib.Algebra.BigOperators.Group.List.Basic
import Mathlib.Data.UInt

namespace WordSum

/-- A sum of machine words wraps around: it is the sum of their values modulo `2^64`. -/
theorem toNat_sum (l : List UInt64) : l.sum.toNat = (l.map UInt64.toNat).sum % 2 ^ 64 := by
  induction l with
  | nil => rfl
  | cons a l ih =>
    rw [List.sum_cons, UInt64.toNat_add, ih, List.map_cons, List.sum_cons, Nat.add_mod_mod]

theorem toNat_sum_map {α : Type*} (l : List α) (f : α → UInt64) :
    (l.map f).sum.toNat = (l.map fun a => (f a).toNat).sum % 2 ^ 64 := by
  rw [toNat_sum, List.map_map]
  rfl

/-- Taking one summand out and another in, as a running counter does it. -/
theorem sum_exchange {total old new rest : UInt64} (counted : total = old + rest) :
    total - old + new = new + rest := by
  rw [counted, add_sub_cancel_left, add_comm]

end WordSum
