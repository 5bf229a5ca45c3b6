import Stakan.OrderBook.MarketData

namespace Stakan
open OrderBook (kEmptyOrder)
open OrderedIndex (StrictTotal)

/-- Of two bids the one with the higher price comes first, then the one with
the larger quantity, then the one with the smaller identifier. -/
def BidPrecedes (a b : Order) : Prop :=
  b.price < a.price ∨ (b.price = a.price ∧ (b.quantity < a.quantity ∨ (b.quantity = a.quantity ∧ a.id < b.id)))

/-- The same for two asks, with the lower price first. -/
def AskPrecedes (a b : Order) : Prop :=
  a.price < b.price ∨ (b.price = a.price ∧ (b.quantity < a.quantity ∨ (b.quantity = a.quantity ∧ a.id < b.id)))

/-- The best of the resting orders: the zero order if there are none, and
else the only one that precedes every other. -/
structure BestOf (precedes : Order → Order → Prop) (orders : List Order) (best : Order) : Prop where
  empty : best = ⟨0, 0, 0⟩ ↔ orders = []
  first : orders ≠ [] → best ∈ orders ∧ ∀ o ∈ orders, o ≠ best → precedes best o
  unique : ∀ b ∈ orders, (∀ o ∈ orders, o ≠ b → precedes b o) → b = best

theorem bidComparator_iff_precedes (a b : Order) : bidComparator a b = true ↔ BidPrecedes a b := by
  simp only [bidComparator, BidPrecedes, Bool.or_eq_true, Bool.and_eq_true, decide_eq_true_eq, beq_iff_eq, gt_iff_lt]
  grind

theorem askComparator_iff_precedes (a b : Order) : askComparator a b = true ↔ AskPrecedes a b := by
  simp only [askComparator, AskPrecedes, Bool.or_eq_true, Bool.and_eq_true, decide_eq_true_eq, beq_iff_eq, gt_iff_lt]
  grind

variable {comparator : Order → Order → Bool} {side : BookSide comparator}

theorem BookSide.WellFormed.bestOf (wf : side.WellFormed) (total : StrictTotal comparator)
    {precedes : Order → Order → Prop} (compares : ∀ a b, comparator a b = true ↔ precedes a b)
    (emptyMessage : String) : BestOf precedes side.orders.ordered (side.best emptyMessage).value where
  empty := by
    rw [← wf.best_eq_empty emptyMessage, kEmptyOrder_eq]
  first := by
    intro nonempty
    obtain ⟨first, rest, atHead⟩ := List.exists_cons_of_ne_nil nonempty
    have strict := wf.coherent.ordered_strict total
    rw [best_value, atHead, List.headD_cons]
    rw [atHead] at strict
    refine ⟨List.mem_cons_self, fun o member other => ?_⟩
    have later := (List.mem_cons.mp member).resolve_left other
    exact (compares first o).mp ((List.pairwise_cons.mp strict).1 o later)
  unique := by
    intro b member precedesAll
    obtain ⟨first, rest, atHead⟩ := List.exists_cons_of_ne_nil (List.ne_nil_of_mem member)
    have strict := wf.coherent.ordered_strict total
    rw [best_value, atHead, List.headD_cons]
    rw [atHead] at strict member precedesAll
    rcases List.mem_cons.mp member with same | later
    · exact same
    · by_contra other
      have before := (compares b first).mpr (precedesAll first List.mem_cons_self (Ne.symm other))
      have after := total.asymm first b ((List.pairwise_cons.mp strict).1 b later)
      rw [after] at before
      contradiction

/-- The best order is a function of the resting orders. -/
theorem BookSide.WellFormed.best_eq {other : BookSide comparator} (wf : side.WellFormed) (wf' : other.WellFormed)
    (total : StrictTotal comparator) (same : ∀ o, o ∈ side.orders.ordered ↔ o ∈ other.orders.ordered)
    (emptyMessage : String) : (side.best emptyMessage).value = (other.best emptyMessage).value := by
  rw [best_value, best_value, wf.coherent.ordered_eq wf'.coherent total same]

namespace OrderBook

/-- After any run the best bid and the best ask are those of the resting
orders, whatever run has left these. -/
theorem run_bestOf (ops : List BookOp) :
    BestOf BidPrecedes (run ops).bids.orders.ordered (run ops).bestBid.value ∧
    BestOf AskPrecedes (run ops).asks.orders.ordered (run ops).bestAsk.value ∧
    ∀ ops' : List BookOp,
      ((∀ o, o ∈ (run ops).bids.orders.ordered ↔ o ∈ (run ops').bids.orders.ordered) →
        (run ops).bestBid.value = (run ops').bestBid.value) ∧
      ((∀ o, o ∈ (run ops).asks.orders.ordered ↔ o ∈ (run ops').asks.orders.ordered) →
        (run ops).bestAsk.value = (run ops').bestAsk.value) := by
  have wf := run_wellFormed ops
  refine ⟨wf.bids.bestOf bidComparator_strictTotal bidComparator_iff_precedes _,
    wf.asks.bestOf askComparator_strictTotal askComparator_iff_precedes _, fun ops' => ⟨fun same => ?_, fun same => ?_⟩⟩
  · exact wf.bids.best_eq (run_wellFormed ops').bids bidComparator_strictTotal same _
  · exact wf.asks.best_eq (run_wellFormed ops').asks askComparator_strictTotal same _

end OrderBook

end Stakan
