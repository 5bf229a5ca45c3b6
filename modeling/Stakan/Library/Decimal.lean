import Stakan.Library.Delimited

namespace Decimal

/-- Numbers have different decimal texts. -/
theorem repr_injective {m n : Nat} (same : Nat.repr m = Nat.repr n) : m = n := by
  have digits : Nat.toDigits 10 m = Nat.toDigits 10 n := by rw [← Nat.toList_repr, ← Nat.toList_repr, same]
  rw [← Nat.ofDigitChars_ten_toDigits (n := m), digits, Nat.ofDigitChars_ten_toDigits]

theorem toString_injective {m n : UInt64} (same : toString m = toString n) : m = n :=
  UInt64.toNat_inj.mp (repr_injective same)

/-- A decimal text consists of digits. -/
theorem isDigit_of_mem {n : UInt64} {c : Char} (member : c ∈ (toString n).toList) : c.isDigit = true := by
  have inside : c ∈ Nat.toDigits 10 n.toNat := by rwa [← Nat.toList_repr]
  exact Nat.isDigit_of_mem_toDigits (by decide) (by decide) inside

/-- A number is read up to the first character that is not a digit. -/
theorem cancel {m n : UInt64} {c : Char} (ends : c.isDigit = false) {rest rest' : List Char}
    (same : (toString m).toList ++ c :: rest = (toString n).toList ++ c :: rest') : m = n ∧ rest = rest' := by
  have outside : ∀ k : UInt64, c ∉ (toString k).toList := by
    intro k member
    rw [isDigit_of_mem member] at ends
    contradiction
  obtain ⟨texts, rests⟩ := Delimited.line_unique same (outside m) (outside n)
  exact ⟨toString_injective (String.toList_injective texts), rests⟩

end Decimal
