import Stakan.OrderBook.Side

namespace Stakan
open OrderBook (kEmptyOrder)
open OrderedIndex (StrictTotal)

/-- The orders of a price level. -/
def atPrice (price : Price) (orders : List Order) : List Order := orders.filter fun o => o.price == price

/-- A sum of quantities as a counter of 64 bits holds it. -/
def sumMod (orders : List Order) : Nat := (orders.map fun o => o.quantity.toNat).sum % 2 ^ 64

/-- The first price of a side under an order of prices; an empty side has price zero. -/
def FirstPrice (le : Price → Price → Prop) (orders : List Order) (price : Price) : Prop :=
  (orders = [] ∧ price = 0) ∨ (∃ o ∈ orders, o.price = price) ∧ ∀ o ∈ orders, le price o.price

theorem kEmptyOrder_eq : kEmptyOrder = {} := by decide

theorem bidComparator_price {a b : Order} (before : bidComparator a b = true) : a.price ≥ b.price := by
  by_cases same : a.price = b.price
  · exact UInt64.le_of_eq same.symm
  · rw [bidComparator_of_price_ne same, decide_eq_true_eq] at before
    exact UInt64.le_of_lt before

theorem askComparator_price {a b : Order} (before : askComparator a b = true) : a.price ≤ b.price := by
  by_cases same : a.price = b.price
  · exact UInt64.le_of_eq same
  · rw [askComparator_of_price_ne same, decide_eq_true_eq] at before
    exact UInt64.le_of_lt before

section Side

variable {comparator : Order → Order → Bool} {side : BookSide comparator}

@[simp] theorem BookSide.best_value (emptyMessage : String) :
    (side.best emptyMessage).value = side.orders.ordered.headD kEmptyOrder := by
  unfold BookSide.best
  cases side.orders.ordered <;> rfl

/-- The zero order stands for an empty side and for nothing else: no
resting order has price zero. -/
theorem BookSide.WellFormed.best_eq_empty (wf : side.WellFormed) (emptyMessage : String) :
    (side.best emptyMessage).value = kEmptyOrder ↔ side.orders.ordered = [] := by
  rw [best_value]
  cases atHead : side.orders.ordered with
  | nil => simp
  | cons o rest =>
    have price := (wf.valid o (by simp [atHead])).1
    simp only [List.headD_cons, reduceCtorEq, iff_false]
    rintro rfl
    exact price rfl

/-- The side's best order has the first price of the side. -/
theorem BookSide.WellFormed.best_price (wf : side.WellFormed) (total : StrictTotal comparator)
    (le : Price → Price → Prop) (refl : ∀ p, le p p)
    (byPrice : ∀ {a b}, comparator a b = true → le a.price b.price) (emptyMessage : String) :
    FirstPrice le side.orders.ordered (side.best emptyMessage).value.price := by
  have strict := wf.coherent.ordered_strict total
  rw [best_value]
  cases atHead : side.orders.ordered with
  | nil => exact Or.inl ⟨rfl, by rw [kEmptyOrder_eq]; rfl⟩
  | cons first rest =>
    rw [atHead] at strict
    refine Or.inr ⟨⟨first, by simp, rfl⟩, ?_⟩
    intro o member
    rcases List.mem_cons.mp member with rfl | later
    · exact refl _
    · exact byPrice ((List.pairwise_cons.mp strict).1 o later)

theorem foldl_pricesInfo (orders : List Order) (info : PricesInfo) :
    orders.foldl (fun info o => { ids := info.ids ++ [o.id], quantity := info.quantity + o.quantity }) info =
      ⟨info.ids ++ orders.map Order.id, info.quantity + (orders.map Order.quantity).sum⟩ := by
  induction orders generalizing info with
  | nil => simp
  | cons o orders ih => rw [List.foldl_cons, ih]; simp [add_assoc]

/-- The lookup finds the whole price level, in the order of the price-only index. -/
theorem getContainerPrice_value {container : OrderContainer comparator} (coherent : container.Coherent)
    (price : Price) (message : String) :
    (getContainerPrice container price message).value =
      ⟨(atPrice price container.secondary).map Order.id,
        ((atPrice price container.secondary).map Order.quantity).sum⟩ := by
  have range : OrderedIndex.equalRange (fun o => o.price < price) (fun o => price < o.price) container.secondary =
      atPrice price container.secondary := by
    rw [coherent.secondary_sorted.equalRange_eq_filter]
    · refine List.filter_congr fun o _ => ?_
      rw [Bool.eq_iff_iff]
      simp [UInt64.le_antisymm_iff, UInt64.not_lt]
    · intro a b ordered low
      simp only [priceLess, decide_eq_false_iff_not, UInt64.not_lt, decide_eq_true_eq] at ordered low ⊢
      exact UInt64.lt_of_le_of_lt ordered low
    · intro a b ordered high
      simp only [priceLess, decide_eq_false_iff_not, UInt64.not_lt, decide_eq_true_eq] at ordered high ⊢
      exact UInt64.lt_of_lt_of_le high ordered
  unfold getContainerPrice
  cases atHead : container.ordered with
  | nil =>
    have none : container.secondary = [] := by
      have perm := coherent.secondary_perm
      rw [atHead] at perm
      exact perm.eq_nil
    simp [none, atPrice]
  | cons o rest => simp [range, foldl_pricesInfo]

theorem BookSide.WellFormed.level_quantity (wf : side.WellFormed) (price : Price) (message : String) :
    (getContainerPrice side.orders price message).value.quantity.toNat =
      sumMod (atPrice price side.orders.ordered) := by
  have level : (atPrice price side.orders.secondary).Perm (atPrice price side.orders.ordered) :=
    wf.coherent.secondary_perm.filter _
  rw [getContainerPrice_value wf.coherent, (level.map _).sum_eq, WordSum.toNat_sum_map, sumMod]

theorem BookSide.WellFormed.total_toNat (wf : side.WellFormed) : side.total.toNat = sumMod side.orders.ordered := by
  rw [wf.total_eq, WordSum.toNat_sum_map, sumMod]

end Side

namespace OrderBook

theorem generateMDUpdate_value (book : OrderBook) :
    book.generateMDUpdate.value =
      if book.bestBid.value = kEmptyOrder ∧ book.bestAsk.value = kEmptyOrder then none
      else some
        { bestBidPrice := book.bestBid.value.price
          bestBidQty := (book.getPricesBidsInfo book.bestBid.value.price).value.quantity
          bestAskPrice := book.bestAsk.value.price
          bestAskQty := (book.getPricesAsksInfo book.bestAsk.value.price).value.quantity
          totalBidQty := book.bids.total
          totalAskQty := book.asks.total } := by
  simp [generateMDUpdate]

/-- The figures of an update are those of the book: the first price of each
side, the whole quantity resting at it, and the whole quantity of the side. -/
structure Describes (u : MDUpdate) (book : OrderBook) : Prop where
  bid_price : FirstPrice (· ≥ ·) book.bids.orders.ordered u.bestBidPrice
  bid_qty : u.bestBidQty.toNat = sumMod (atPrice u.bestBidPrice book.bids.orders.ordered)
  ask_price : FirstPrice (· ≤ ·) book.asks.orders.ordered u.bestAskPrice
  ask_qty : u.bestAskQty.toNat = sumMod (atPrice u.bestAskPrice book.asks.orders.ordered)
  total_bid : u.totalBidQty.toNat = sumMod book.bids.orders.ordered
  total_ask : u.totalAskQty.toNat = sumMod book.asks.orders.ordered

theorem WellFormed.generateMDUpdate_eq_none {book : OrderBook} (wf : book.WellFormed) :
    book.generateMDUpdate.value = none ↔ book.bids.orders.ordered = [] ∧ book.asks.orders.ordered = [] := by
  have bid := wf.bids.best_eq_empty "BestBid: bids are empty"
  have ask := wf.asks.best_eq_empty "BestAsk: asks are empty"
  rw [generateMDUpdate_value, ← bid, ← ask]
  exact ite_eq_left_iff.trans (by simp [bestBid, bestAsk])

theorem WellFormed.bestBid_price {book : OrderBook} (wf : book.WellFormed) :
    FirstPrice (· ≥ ·) book.bids.orders.ordered book.bestBid.value.price :=
  wf.bids.best_price bidComparator_strictTotal (· ≥ ·) (fun p => UInt64.le_refl p) bidComparator_price _

theorem WellFormed.bestAsk_price {book : OrderBook} (wf : book.WellFormed) :
    FirstPrice (· ≤ ·) book.asks.orders.ordered book.bestAsk.value.price :=
  wf.asks.best_price askComparator_strictTotal (· ≤ ·) (fun p => UInt64.le_refl p) askComparator_price _

theorem WellFormed.generateMDUpdate_describes {book : OrderBook} (wf : book.WellFormed) {u : MDUpdate}
    (update : book.generateMDUpdate.value = some u) : Describes u book := by
  rw [generateMDUpdate_value] at update
  split at update
  next => contradiction
  next =>
    cases Option.some.inj update
    exact ⟨wf.bestBid_price, wf.bids.level_quantity _ _, wf.bestAsk_price, wf.asks.level_quantity _ _,
      wf.bids.total_toNat, wf.asks.total_toNat⟩

/-- After any run the update is absent exactly when both sides are empty and
describes the book otherwise; an empty side contributes zeros. -/
theorem run_generateMDUpdate (ops : List BookOp) :
    ((run ops).generateMDUpdate.value = none ↔
      (run ops).bids.orders.ordered = [] ∧ (run ops).asks.orders.ordered = []) ∧
    ∀ u, (run ops).generateMDUpdate.value = some u → Describes u (run ops) ∧
      ((run ops).bids.orders.ordered = [] → u.bestBidPrice = 0 ∧ u.bestBidQty = 0 ∧ u.totalBidQty = 0) ∧
      ((run ops).asks.orders.ordered = [] → u.bestAskPrice = 0 ∧ u.bestAskQty = 0 ∧ u.totalAskQty = 0) := by
  have wf := run_wellFormed ops
  refine ⟨wf.generateMDUpdate_eq_none, fun u update => ?_⟩
  have figures := wf.generateMDUpdate_describes update
  refine ⟨figures, fun empty => ?_, fun empty => ?_⟩
  · obtain ⟨price, qty, _, _, total, _⟩ := figures
    rw [empty] at price qty total
    refine ⟨?_, UInt64.toNat_inj.mp qty, UInt64.toNat_inj.mp total⟩
    simpa [FirstPrice] using price
  · obtain ⟨_, _, price, qty, _, total⟩ := figures
    rw [empty] at price qty total
    refine ⟨?_, UInt64.toNat_inj.mp qty, UInt64.toNat_inj.mp total⟩
    simpa [FirstPrice] using price

end OrderBook

end Stakan
