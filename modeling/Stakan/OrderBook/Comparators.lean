import Mathlib.Data.Prod.Lex
import Stakan.OrderBook.Basic

namespace Stakan
open OrderedIndex (StrictWeak StrictTotal Sorted)
open OrderDual (toDual)

/-- Price descending, then quantity descending, then identifier ascending. -/
def bidRank (o : Order) : ℕᵒᵈ ×ₗ ℕᵒᵈ ×ₗ ℕ :=
  toLex (toDual o.price.toNat, toLex (toDual o.quantity.toNat, o.id.toNat))

/-- Price ascending, then quantity descending, then identifier ascending. -/
def askRank (o : Order) : ℕ ×ₗ ℕᵒᵈ ×ₗ ℕ :=
  toLex (o.price.toNat, toLex (toDual o.quantity.toNat, o.id.toNat))

theorem bidComparator_iff (a b : Order) : bidComparator a b = true ↔ bidRank a < bidRank b := by
  simp [bidComparator, bidRank, Prod.Lex.toLex_lt_toLex, UInt64.lt_iff_toNat_lt, UInt64.toNat_inj]
  tauto

theorem askComparator_iff (a b : Order) : askComparator a b = true ↔ askRank a < askRank b := by
  simp [askComparator, askRank, Prod.Lex.toLex_lt_toLex, UInt64.lt_iff_toNat_lt, UInt64.toNat_inj]
  tauto

theorem bidComparator_strictTotal : StrictTotal bidComparator := by
  refine .of_rank bidRank ?_ bidComparator_iff
  rintro ⟨id, price, quantity⟩ ⟨id', price', quantity'⟩ same
  simp_all [bidRank, UInt64.toNat_inj]

theorem askComparator_strictTotal : StrictTotal askComparator := by
  refine .of_rank askRank ?_ askComparator_iff
  rintro ⟨id, price, quantity⟩ ⟨id', price', quantity'⟩ same
  simp_all [askRank, UInt64.toNat_inj]

/-- A strict total order of orders whose equality is `==`. -/
structure TotalOrder (comparator : Order → Order → Bool) : Prop where
  irreflexive : ∀ a, comparator a a = false
  asymmetric : ∀ a b, comparator a b = true → comparator b a = false
  transitive : ∀ a b c, comparator a b = true → comparator b c = true → comparator a c = true
  exactly_one : ∀ a b, [comparator a b, comparator b a, a == b].count true = 1

/-- Two comparators agree on orders of one price. On orders of different
prices one says the reverse of the other. -/
structure Opposed (comparator comparator' : Order → Order → Bool) : Prop where
  one_price : ∀ a b, a.price = b.price → comparator a b = comparator' a b
  two_prices : ∀ a b, a.price ≠ b.price → comparator a b = !comparator' a b ∧ comparator a b = comparator' b a

theorem TotalOrder.of_strictTotal {comparator : Order → Order → Bool} (total : StrictTotal comparator) :
    TotalOrder comparator where
  irreflexive := total.irrefl
  asymmetric := total.asymm
  transitive _ _ _ := total.trans
  exactly_one := total.exactly_one

/-- Different prices decide. -/
theorem bidComparator_of_price_ne {a b : Order} (different : a.price ≠ b.price) :
    bidComparator a b = decide (b.price < a.price) := by
  simp only [bidComparator, beq_false_of_ne different, Bool.false_and, Bool.or_false, gt_iff_lt]

theorem askComparator_of_price_ne {a b : Order} (different : a.price ≠ b.price) :
    askComparator a b = decide (a.price < b.price) := by
  simp only [askComparator, beq_false_of_ne different, Bool.false_and, Bool.or_false]

/-- Both comparators order all orders strictly and totally, and they differ
in the direction of prices alone. -/
theorem comparators_totalOrder :
    TotalOrder bidComparator ∧ TotalOrder askComparator ∧ Opposed bidComparator askComparator := by
  refine ⟨.of_strictTotal bidComparator_strictTotal, .of_strictTotal askComparator_strictTotal, ?_, ?_⟩
  · intro a b same
    simp [bidComparator, askComparator, same]
  · intro a b different
    have reverse : bidComparator a b = askComparator b a := by
      rw [bidComparator_of_price_ne different, askComparator_of_price_ne different.symm]
    refine ⟨?_, reverse⟩
    rw [bidComparator_of_price_ne different, askComparator_of_price_ne different, ← decide_not, decide_eq_decide,
      UInt64.not_lt]
    exact ⟨UInt64.le_of_lt, fun le => UInt64.lt_of_le_of_ne le different.symm⟩

theorem priceLess_strictWeak : StrictWeak priceLess :=
  .of_rank (fun o => o.price.toNat) fun a b => by simp [priceLess, UInt64.lt_iff_toNat_lt]

end Stakan
