import Stakan.OrderBook.LockStep

namespace Stakan
open OrderBook (kEmptyOrder)

/-- A price seen from `m`. Price zero, which no resting order has, stays. -/
def reflectPrice (m : ℕ) (price : Price) : Price := if price = 0 then 0 else UInt64.ofNat (m - price.toNat)

def Order.reflect (m : ℕ) (order : Order) : Order := { order with price := reflectPrice m order.price }

def SideOp.reflect (m : ℕ) : SideOp → SideOp
  | .new order => .new (order.reflect m)
  | .cancel orderId => .cancel orderId
  | .replace oldOrder newOrder => .replace (oldOrder.reflect m) (newOrder.reflect m)

/-- The prices a call is given. -/
def SideOp.prices : SideOp → List Price
  | .new order => [order.price]
  | .cancel _ => []
  | .replace oldOrder newOrder => [oldOrder.price, newOrder.price]

/-- The price lies below `m`, and seen from there it is a price again: with
`m` up to `2^64` it always is. -/
structure Reflectable (m : ℕ) (price : Price) : Prop where
  below : price.toNat < m
  fits : price ≠ 0 → m - price.toNat < 2 ^ 64

variable {m : ℕ}

theorem Reflectable.toNat_reflectPrice {price : Price} (reflectable : Reflectable m price) (nonzero : price ≠ 0) :
    (reflectPrice m price).toNat = m - price.toNat := by
  rw [reflectPrice, if_neg nonzero]
  exact UInt64.toNat_ofNat_of_lt' (reflectable.fits nonzero)

theorem Reflectable.reflectPrice_eq_zero {price : Price} (reflectable : Reflectable m price) :
    reflectPrice m price = 0 ↔ price = 0 := by
  constructor
  · intro zero
    by_contra nonzero
    have reflected := reflectable.toNat_reflectPrice nonzero
    have below := reflectable.below
    rw [zero] at reflected
    have : (0 : Price).toNat = 0 := rfl
    omega
  · intro zero
    rw [reflectPrice, if_pos zero]

theorem Reflectable.reflectPrice_lt {price other : Price} (reflectable : Reflectable m price)
    (reflectable' : Reflectable m other) (nonzero : price ≠ 0) (nonzero' : other ≠ 0) :
    reflectPrice m price < reflectPrice m other ↔ other < price := by
  have below := reflectable.below
  have below' := reflectable'.below
  rw [UInt64.lt_iff_toNat_lt, UInt64.lt_iff_toNat_lt, reflectable.toNat_reflectPrice nonzero,
    reflectable'.toNat_reflectPrice nonzero']
  omega

theorem Reflectable.reflectPrice_inj {price other : Price} (reflectable : Reflectable m price)
    (reflectable' : Reflectable m other) (nonzero : price ≠ 0) (nonzero' : other ≠ 0) :
    reflectPrice m price = reflectPrice m other ↔ price = other := by
  have below := reflectable.below
  have below' := reflectable'.below
  rw [← UInt64.toNat_inj, ← UInt64.toNat_inj, reflectable.toNat_reflectPrice nonzero,
    reflectable'.toNat_reflectPrice nonzero']
  omega

/-- Of two reflected orders that one precedes as an ask which did as a bid. -/
theorem askPrecedes_reflect {a b : Order} (reflectable : Reflectable m a.price) (reflectable' : Reflectable m b.price)
    (nonzero : a.price ≠ 0) (nonzero' : b.price ≠ 0) :
    AskPrecedes (a.reflect m) (b.reflect m) ↔ BidPrecedes a b := by
  unfold AskPrecedes BidPrecedes Order.reflect
  rw [reflectable.reflectPrice_lt reflectable' nonzero nonzero',
    reflectable'.reflectPrice_inj reflectable nonzero' nonzero]

/-- The map with every price in it reflected. -/
def RestingMap.reflect (m : ℕ) (resting : RestingMap) : RestingMap :=
  fun id => (resting id).map fun terms => (reflectPrice m terms.1, terms.2)

theorem SideOp.entry_reflect {op : SideOp} (reflectable : ∀ price ∈ op.prices, Reflectable m price)
    (entry : Option (Price × Quantity)) :
    (op.reflect m).entry (entry.map fun terms => (reflectPrice m terms.1, terms.2)) =
      (op.entry entry).map fun terms => (reflectPrice m terms.1, terms.2) := by
  cases op with
  | new order =>
    have zero := (reflectable order.price (by simp [prices])).reflectPrice_eq_zero
    simp only [SideOp.reflect, SideOp.entry, Order.reflect, ne_eq, zero, Option.map_eq_none_iff]
    split <;> rfl
  | cancel orderId => rfl
  | replace oldOrder newOrder =>
    have zero := (reflectable newOrder.price (by simp [prices])).reflectPrice_eq_zero
    simp only [SideOp.reflect, SideOp.entry, Order.reflect, ne_eq, zero, Option.map_eq_none_iff]
    split <;> rfl

theorem SideOp.entry_allowed {allowed : Price → Prop} {op : SideOp} (given : ∀ price ∈ op.prices, allowed price)
    {entry : Option (Price × Quantity)} (before : ∀ terms ∈ entry, allowed terms.1) :
    ∀ terms ∈ op.entry entry, allowed terms.1 := by
  intro terms present
  cases op with
  | new order =>
    rw [SideOp.entry] at present
    split at present
    next =>
      cases present
      exact given order.price (by simp [prices])
    next => exact before terms present
  | cancel orderId => cases present
  | replace oldOrder newOrder =>
    rw [SideOp.entry] at present
    split at present
    next =>
      cases present
      exact given newOrder.price (by simp [prices])
    next => exact before terms present

theorem RestingMap.step_reflect {op : SideOp} (reflectable : ∀ price ∈ op.prices, Reflectable m price)
    (resting : RestingMap) : (resting.reflect m).step (op.reflect m) = (resting.step op).reflect m := by
  have same : (op.reflect m).orderId = op.orderId := by cases op <;> rfl
  rw [step_eq_update, step_eq_update, same, RestingMap.reflect, SideOp.entry_reflect reflectable]
  funext id
  simp only [RestingMap.reflect, Function.update_apply]
  split <;> rfl

/-- Reflected calls on reflected maps make the reflected map. -/
theorem RestingMap.foldl_reflect {ops : List SideOp}
    (reflectable : ∀ op ∈ ops, ∀ price ∈ op.prices, Reflectable m price) (resting : RestingMap) :
    (ops.map (SideOp.reflect m)).foldl step (resting.reflect m) = (ops.foldl step resting).reflect m := by
  induction ops generalizing resting with
  | nil => rfl
  | cons op ops ih =>
    obtain ⟨first, later⟩ := List.forall_mem_cons.mp reflectable
    rw [List.map_cons, List.foldl_cons, List.foldl_cons, step_reflect first, ih later]

/-- Calls put no price into the map that they are not given. -/
theorem RestingMap.foldl_prices {allowed : Price → Prop} {ops : List SideOp}
    (given : ∀ op ∈ ops, ∀ price ∈ op.prices, allowed price) (resting : RestingMap)
    (before : ∀ id, ∀ terms ∈ resting id, allowed terms.1) :
    ∀ id, ∀ terms ∈ ops.foldl step resting id, allowed terms.1 := by
  induction ops generalizing resting with
  | nil => exact before
  | cons op ops ih =>
    obtain ⟨first, later⟩ := List.forall_mem_cons.mp given
    refine ih later _ fun id terms present => ?_
    rw [step_eq_update] at present
    by_cases same : id = op.orderId
    · rw [same, Function.update_self] at present
      exact SideOp.entry_allowed first (before op.orderId) terms present
    · rw [Function.update_of_ne same] at present
      exact before id terms present

/-- The best ask of the reflected orders is the best bid reflected. -/
theorem BestOf.reflect {orders orders' : List Order} {bid ask : Order} (best : BestOf BidPrecedes orders bid)
    (best' : BestOf AskPrecedes orders' ask) (reflectable : ∀ o ∈ orders, Reflectable m o.price ∧ o.price ≠ 0)
    (reflected : ∀ o, o ∈ orders' ↔ ∃ b ∈ orders, b.reflect m = o) : ask = bid.reflect m := by
  by_cases empty : orders = []
  · have none : orders' = [] := List.eq_nil_iff_forall_not_mem.mpr fun o member => by
      obtain ⟨b, inside, _⟩ := (reflected o).mp member
      rw [empty] at inside
      exact List.not_mem_nil inside
    rw [best.empty.mpr empty, best'.empty.mpr none, Order.reflect, reflectPrice, if_pos rfl]
  · obtain ⟨member, precedes⟩ := best.first empty
    obtain ⟨below, nonzero⟩ := reflectable bid member
    refine (best'.unique (bid.reflect m) ((reflected _).mpr ⟨bid, member, rfl⟩) ?_).symm
    intro o inside other
    obtain ⟨b, atB, rfl⟩ := (reflected o).mp inside
    obtain ⟨below', nonzero'⟩ := reflectable b atB
    have distinct : b ≠ bid := fun same => other (by rw [same])
    exact (askPrecedes_reflect below below' nonzero nonzero').mpr (precedes b atB distinct)

namespace OrderBook

theorem resting_asBid (ops : List SideOp) :
    (run (ops.map SideOp.asBid)).bids.resting = ops.foldl RestingMap.step fun _ => none :=
  ((run_wellFormed []).foldl_asBid ops).2.1

theorem resting_asAsk (ops : List SideOp) :
    (run (ops.map SideOp.asAsk)).asks.resting = ops.foldl RestingMap.step fun _ => none :=
  ((run_wellFormed []).foldl_asAsk ops).2.1

theorem mem_reflect {ops : List SideOp} (reflectable : ∀ op ∈ ops, ∀ price ∈ op.prices, Reflectable m price)
    (o : Order) : o ∈ (run ((ops.map (SideOp.reflect m)).map SideOp.asAsk)).asks.orders.ordered ↔
      ∃ b ∈ (run (ops.map SideOp.asBid)).bids.orders.ordered, b.reflect m = o := by
  have bids := run_wellFormed (ops.map SideOp.asBid)
  have asks := run_wellFormed ((ops.map (SideOp.reflect m)).map SideOp.asAsk)
  have reflected : (run ((ops.map (SideOp.reflect m)).map SideOp.asAsk)).asks.resting =
      (run (ops.map SideOp.asBid)).bids.resting.reflect m := by
    rw [resting_asAsk, resting_asBid, ← RestingMap.foldl_reflect reflectable]
    rfl
  rw [asks.asks.mem_iff_resting, reflected]
  constructor
  · intro present
    obtain ⟨⟨price, quantity⟩, atId, terms⟩ := Option.map_eq_some_iff.mp present
    obtain ⟨price', quantity'⟩ := Prod.mk.inj terms
    refine ⟨⟨o.id, price, quantity⟩, (bids.bids.mem_iff_resting _).mpr atId, ?_⟩
    rw [Order.reflect, price', show quantity = o.quantity from quantity']
  · intro ⟨b, member, same⟩
    have resting := (bids.bids.mem_iff_resting b).mp member
    rw [← same]
    exact Option.map_eq_some_iff.mpr ⟨_, resting, rfl⟩

theorem prices_reflectable {ops : List SideOp}
    (reflectable : ∀ op ∈ ops, ∀ price ∈ op.prices, Reflectable m price) (o : Order)
    (member : o ∈ (run (ops.map SideOp.asBid)).bids.orders.ordered) : Reflectable m o.price := by
  have resting := ((run_wellFormed (ops.map SideOp.asBid)).bids.mem_iff_resting o).mp member
  rw [resting_asBid] at resting
  have empty : ∀ id, ∀ terms ∈ (fun _ => none : RestingMap) id, Reflectable m terms.1 :=
    fun _ _ present => nomatch present
  exact RestingMap.foldl_prices reflectable _ empty o.id _ resting

/-- The two sides run in step. The same calls leave the same orders, total
and levels on either side; and calls with reflected prices make the best ask
the best bid's reflection. -/
theorem run_lockStep (ops : List SideOp) :
    ((run (ops.map SideOp.asBid)).bids.orders.ordered.Perm (run (ops.map SideOp.asAsk)).asks.orders.ordered ∧
      (run (ops.map SideOp.asBid)).bids.total = (run (ops.map SideOp.asAsk)).asks.total ∧
      ∀ price, ((run (ops.map SideOp.asBid)).getPricesBidsInfo price).value =
        ((run (ops.map SideOp.asAsk)).getPricesAsksInfo price).value) ∧
    ∀ m : ℕ, (∀ op ∈ ops, ∀ price ∈ op.prices, Reflectable m price) →
      (run ((ops.map (SideOp.reflect m)).map SideOp.asAsk)).bestAsk.value =
        (run (ops.map SideOp.asBid)).bestBid.value.reflect m ∧
      ((run ((ops.map (SideOp.reflect m)).map SideOp.asAsk)).bestAsk.value = kEmptyOrder ↔
        (run (ops.map SideOp.asBid)).bestBid.value = kEmptyOrder) := by
  have bids := (run_wellFormed (ops.map SideOp.asBid)).bids
  have asks := (run_wellFormed (ops.map SideOp.asAsk)).asks
  have inStep := run_asBid_inStep ops
  refine ⟨⟨inStep.orders.ordered_perm bids.coherent asks.coherent, inStep.total, fun price =>
    inStep.level_eq bids asks price _ _⟩, fun m reflectable => ?_⟩
  have mirrored := (run_wellFormed ((ops.map (SideOp.reflect m)).map SideOp.asAsk)).asks
  have best := bids.bestOf bidComparator_strictTotal bidComparator_iff_precedes "BestBid: bids are empty"
  have best' := mirrored.bestOf askComparator_strictTotal askComparator_iff_precedes "BestAsk: asks are empty"
  have reflected := mem_reflect reflectable
  have valid : ∀ o ∈ (run (ops.map SideOp.asBid)).bids.orders.ordered, Reflectable m o.price ∧ o.price ≠ 0 :=
    fun o member => ⟨prices_reflectable reflectable o member, (bids.valid o member).1⟩
  refine ⟨best.reflect best' valid reflected, ?_⟩
  rw [kEmptyOrder_eq]
  refine best'.empty.trans (Iff.trans ?_ best.empty.symm)
  rw [List.eq_nil_iff_forall_not_mem, List.eq_nil_iff_forall_not_mem]
  constructor
  · intro none b member
    exact none (b.reflect m) ((reflected _).mpr ⟨b, member, rfl⟩)
  · intro none o inside
    obtain ⟨b, member, _⟩ := (reflected o).mp inside
    exact none b member

end OrderBook

end Stakan
