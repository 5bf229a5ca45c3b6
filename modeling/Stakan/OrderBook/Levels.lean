import Stakan.Library.Grouping
import Stakan.OrderBook.MarketData

namespace Stakan
open Grouping (group perm_flatMap_dedup sum_groups)

/-- The price levels of the resting orders, as the look-ups show them: each
has the identifiers of its orders once and their quantities added up. Over
the prices that occur the levels share out all the orders, and their
quantities make up the total. -/
structure LevelsExact (orders : List Order) (info : Price → PricesInfo) (total : Quantity) : Prop where
  ids : ∀ price id, id ∈ (info price).ids ↔ ∃ o ∈ orders, o.price = price ∧ o.id = id
  once : ∀ price, (info price).ids.Nodup
  quantity : ∀ price, (info price).quantity.toNat =
    ((orders.filter fun o => o.price == price).map fun o => o.quantity.toNat).sum % 2 ^ 64
  absent : ∀ price, (∀ o ∈ orders, o.price ≠ price) → info price = {}
  distinct : (orders.map Order.id).Nodup
  partition : ((orders.map Order.price).dedup.flatMap fun price => (info price).ids).Perm (orders.map Order.id)
  conserved : total.toNat = ((orders.map Order.price).dedup.map fun price => (info price).quantity.toNat).sum % 2 ^ 64

variable {comparator : Order → Order → Bool} {side : BookSide comparator}

/-- A look-up gives the identifiers of the price level, in some order, and its quantity. -/
theorem BookSide.WellFormed.level (wf : side.WellFormed) (price : Price) (message : String) :
    (getContainerPrice side.orders price message).value.ids.Perm ((atPrice price side.orders.ordered).map Order.id) ∧
      (getContainerPrice side.orders price message).value.quantity =
        ((atPrice price side.orders.ordered).map Order.quantity).sum := by
  have level : (atPrice price side.orders.secondary).Perm (atPrice price side.orders.ordered) :=
    wf.coherent.secondary_perm.filter _
  rw [getContainerPrice_value wf.coherent]
  exact ⟨level.map _, (level.map _).sum_eq⟩

theorem BookSide.WellFormed.levelsExact (wf : side.WellFormed) (message : String) :
    LevelsExact side.orders.ordered (fun price => (getContainerPrice side.orders price message).value) side.total where
  ids price id := by
    rw [(wf.level price message).1.mem_iff]
    simp only [atPrice, List.mem_map, List.mem_filter, beq_iff_eq, and_assoc]
  once price := by
    refine (wf.level price message).1.nodup_iff.mpr ?_
    exact (List.filter_sublist.map Order.id).nodup wf.coherent.keys_nodup
  quantity price := wf.level_quantity price message
  absent price none := by
    have empty : atPrice price side.orders.ordered = [] :=
      List.filter_eq_nil_iff.mpr fun o member => by simpa using none o member
    obtain ⟨ids, quantity⟩ := wf.level price message
    rw [empty] at ids quantity
    change PricesInfo.mk _ _ = _
    rw [ids.eq_nil, quantity]
    rfl
  distinct := wf.coherent.keys_nodup
  partition := by
    have levels := List.Perm.flatMap_left ((side.orders.ordered.map Order.price).dedup)
      fun price _ => (wf.level price message).1
    refine levels.trans ?_
    rw [← List.map_flatMap]
    exact (perm_flatMap_dedup Order.price side.orders.ordered).map Order.id
  conserved := by
    have quantities : (side.orders.ordered.map Order.price).dedup.map
        (fun price => (getContainerPrice side.orders price message).value.quantity) =
          (side.orders.ordered.map Order.price).dedup.map
            fun price => ((group Order.price side.orders.ordered price).map Order.quantity).sum :=
      List.map_congr_left fun price _ => (wf.level price message).2
    rw [← WordSum.toNat_sum_map, quantities, sum_groups, ← wf.total_eq]

namespace OrderBook

/-- After any run the levels of both sides are those of the resting orders. -/
theorem run_levelsExact (ops : List BookOp) :
    LevelsExact (run ops).bids.orders.ordered (fun price => ((run ops).getPricesBidsInfo price).value)
      (run ops).bids.total ∧
    LevelsExact (run ops).asks.orders.ordered (fun price => ((run ops).getPricesAsksInfo price).value)
      (run ops).asks.total :=
  ⟨(run_wellFormed ops).bids.levelsExact _, (run_wellFormed ops).asks.levelsExact _⟩

end OrderBook

end Stakan
