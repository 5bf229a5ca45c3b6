import Stakan.OrderBook.Side

namespace Stakan
open OrderedIndex (StrictTotal)

/-- What every query of a side relies on: the three indices hold the same
orders, each in its own order, an identifier at most once, no empty order,
and a counter that is the sum of the quantities modulo `2^64`. -/
structure BookSide.Consistent {comparator : Order → Order → Bool} (side : BookSide comparator) : Prop where
  hashed_same : side.orders.hashed.Perm side.orders.ordered
  secondary_same : side.orders.secondary.Perm side.orders.ordered
  strictly_sorted : side.orders.ordered.Pairwise fun a b => comparator a b = true
  price_sorted : side.orders.secondary.Pairwise fun a b => a.price ≤ b.price
  ids_nodup : (side.orders.ordered.map Order.id).Nodup
  valid : ∀ o ∈ side.orders.ordered, o.price ≠ 0 ∧ o.quantity ≠ 0
  total_mod : side.total.toNat = (side.orders.ordered.map fun o => o.quantity.toNat).sum % 2 ^ 64

theorem BookSide.WellFormed.consistent {comparator : Order → Order → Bool} {side : BookSide comparator}
    (wf : side.WellFormed) (total : StrictTotal comparator) : side.Consistent where
  hashed_same := wf.coherent.hashed_perm
  secondary_same := wf.coherent.secondary_perm
  strictly_sorted := wf.coherent.ordered_strict total
  price_sorted := wf.coherent.secondary_sorted.imp fun {a b} notAfter => by
    simpa [priceLess] using notAfter
  ids_nodup := wf.coherent.keys_nodup
  valid := wf.valid
  total_mod := by rw [wf.total_eq, WordSum.toNat_sum_map]

/-- After any sequence of calls with any arguments both sides are consistent. -/
theorem OrderBook.run_consistent (ops : List BookOp) :
    (run ops).bids.Consistent ∧ (run ops).asks.Consistent :=
  ⟨(run_wellFormed ops).bids.consistent bidComparator_strictTotal,
    (run_wellFormed ops).asks.consistent askComparator_strictTotal⟩

end Stakan
