import Stakan.OrderBook.Comparators

namespace Stakan
open OrderedIndex (StrictTotal)

/-- A call seen from the side it acts on. -/
inductive SideOp
  | new (order : Order)
  | cancel (orderId : ID)
  | replace (oldOrder newOrder : Order)
  deriving DecidableEq

def BookOp.onBids : BookOp → Option SideOp
  | .newBid order => some (.new order)
  | .cancelBid orderId => some (.cancel orderId)
  | .replaceBid oldOrder newOrder => some (.replace oldOrder newOrder)
  | _ => none

def BookOp.onAsks : BookOp → Option SideOp
  | .newAsk order => some (.new order)
  | .cancelAsk orderId => some (.cancel orderId)
  | .replaceAsk oldOrder newOrder => some (.replace oldOrder newOrder)
  | _ => none

/-- The call on the bid side, and on the ask side. -/
def SideOp.asBid : SideOp → BookOp
  | .new order => .newBid order
  | .cancel orderId => .cancelBid orderId
  | .replace oldOrder newOrder => .replaceBid oldOrder newOrder

def SideOp.asAsk : SideOp → BookOp
  | .new order => .newAsk order
  | .cancel orderId => .cancelAsk orderId
  | .replace oldOrder newOrder => .replaceAsk oldOrder newOrder

namespace BookSide

variable {comparator : Order → Order → Bool}

def call (names : SideNames) (side : BookSide comparator) : SideOp → Logged (BookSide comparator)
  | .new order => side.new names order
  | .cancel orderId => side.cancel names orderId
  | .replace oldOrder newOrder => side.replace names oldOrder newOrder

def step (names : SideNames) (side : BookSide comparator) (op : SideOp) : BookSide comparator :=
  (side.call names op).value

theorem validate_value (order : Order) (operation : String) :
    (validate order operation).value = decide (order.price ≠ 0 ∧ order.quantity ≠ 0) := by
  by_cases price : order.price = 0 <;> by_cases quantity : order.quantity = 0 <;>
    simp [validate, price, quantity]

theorem new_value (names : SideNames) (order : Order) (side : BookSide comparator) :
    (side.new names order).value =
      if order.price ≠ 0 ∧ order.quantity ≠ 0 ∧ side.orders.find order.id = none then
        ⟨(side.orders.insert order).1, side.total + order.quantity⟩
      else side := by
  by_cases valid : order.price ≠ 0 ∧ order.quantity ≠ 0
  · cases present : side.orders.find order.id <;>
      simp [BookSide.new, validate_value, MultiIndex.insert, valid, present]
  · have refused : ¬(order.price ≠ 0 ∧ order.quantity ≠ 0 ∧ side.orders.find order.id = none) :=
      fun all => valid ⟨all.1, all.2.1⟩
    rw [if_neg refused]
    simp only [BookSide.new, Logged.value_bind, validate_value, decide_eq_false valid, Bool.not_false, if_true,
      Logged.value_pure]

theorem cancel_value (names : SideNames) (orderId : ID) (side : BookSide comparator) :
    (side.cancel names orderId).value = match side.orders.find orderId with
      | some resting => ⟨side.orders.erase orderId, side.total - resting.quantity⟩
      | none => side := by
  unfold BookSide.cancel
  cases side.orders.find orderId <;> rfl

theorem replace_value (names : SideNames) (oldOrder newOrder : Order) (side : BookSide comparator) :
    (side.replace names oldOrder newOrder).value =
      if newOrder.price ≠ 0 ∧ newOrder.quantity ≠ 0 ∧ oldOrder.id = newOrder.id then
        match side.orders.find newOrder.id with
        | some resting =>
          ⟨side.orders.modify newOrder.id newOrder.assignTerms,
            side.total - resting.quantity + newOrder.quantity⟩
        | none => side
      else side := by
  by_cases valid : newOrder.price = 0 ∨ newOrder.quantity = 0
  · rcases valid with price | quantity
    · simp [BookSide.replace, price]
    · simp [BookSide.replace, quantity]
  · obtain ⟨price, quantity⟩ := not_or.mp valid
    by_cases same : oldOrder.id = newOrder.id
    · cases present : side.orders.find newOrder.id <;>
        simp [BookSide.replace, price, quantity, same, present]
    · simp [BookSide.replace, price, quantity, same]

/-- What holds of a side between calls: the three indices agree, every
resting order is valid, and the counter is the sum of the quantities. -/
structure WellFormed (side : BookSide comparator) : Prop where
  coherent : side.orders.Coherent
  valid : ∀ o ∈ side.orders.ordered, o.price ≠ 0 ∧ o.quantity ≠ 0
  total_eq : side.total = (side.orders.ordered.map Order.quantity).sum

theorem wellFormed_empty : WellFormed ({} : BookSide comparator) where
  coherent := MultiIndex.empty_coherent
  valid o member := by simp [MultiIndex.empty] at member
  total_eq := rfl

variable {side : BookSide comparator}

theorem WellFormed.new (wf : side.WellFormed) (total : StrictTotal comparator) (names : SideNames)
    (order : Order) : (side.new names order).value.WellFormed := by
  rw [new_value]
  split
  next accepted =>
    obtain ⟨price, quantity, absent⟩ := accepted
    have inserted := wf.coherent.insert_of_absent (wf.coherent.find_eq_none.mp absent)
    have perm := OrderedIndex.link_perm comparator order side.orders.ordered
    refine ⟨wf.coherent.insert total.toStrictWeak priceLess_strictWeak order, ?_, ?_⟩
    · rw [inserted]
      intro o member
      rcases OrderedIndex.mem_link.mp member with rfl | old
      · exact ⟨price, quantity⟩
      · exact wf.valid o old
    · rw [inserted, (perm.map Order.quantity).sum_eq, List.map_cons, List.sum_cons, ← wf.total_eq, add_comm]
  next => exact wf

theorem WellFormed.cancel (wf : side.WellFormed) (names : SideNames) (orderId : ID) :
    (side.cancel names orderId).value.WellFormed := by
  rw [cancel_value]
  cases found : side.orders.find orderId with
  | none => exact wf
  | some resting =>
    obtain ⟨member, rfl⟩ := wf.coherent.find_eq_some.mp found
    have perm := wf.coherent.perm_cons_erase member
    refine ⟨wf.coherent.erase _, fun o rest => wf.valid o (wf.coherent.mem_erase.mp rest).1, ?_⟩
    dsimp only
    rw [wf.total_eq, (perm.map Order.quantity).sum_eq, List.map_cons, List.sum_cons, add_sub_cancel_left]

theorem WellFormed.replace (wf : side.WellFormed) (total : StrictTotal comparator) (names : SideNames)
    (oldOrder newOrder : Order) : (side.replace names oldOrder newOrder).value.WellFormed := by
  rw [replace_value]
  split
  next accepted =>
    obtain ⟨price, quantity, _⟩ := accepted
    cases found : side.orders.find newOrder.id with
    | none => exact wf
    | some resting =>
      obtain ⟨member, atId⟩ := wf.coherent.find_eq_some.mp found
      have changed : (side.orders.modify newOrder.id newOrder.assignTerms).ordered.Perm
          (newOrder.assignTerms resting :: (side.orders.erase newOrder.id).ordered) := by
        rw [← atId]
        exact wf.coherent.modify_perm member rfl
      have removed := wf.coherent.perm_cons_erase member
      rw [atId] at removed
      dsimp only
      refine ⟨?_, ?_, ?_⟩
      · rw [← atId]
        exact wf.coherent.modify total.toStrictWeak priceLess_strictWeak member rfl
      · intro o inside
        rcases List.mem_cons.mp (changed.mem_iff.mp inside) with rfl | old
        · exact ⟨price, quantity⟩
        · exact wf.valid o (wf.coherent.mem_erase.mp old).1
      · have counted : side.total =
            resting.quantity + ((side.orders.erase newOrder.id).ordered.map Order.quantity).sum := by
          rw [wf.total_eq, (removed.map Order.quantity).sum_eq, List.map_cons, List.sum_cons]
        rw [WordSum.sum_exchange counted, (changed.map Order.quantity).sum_eq, List.map_cons, List.sum_cons]
        rfl
  next => exact wf

theorem WellFormed.step (wf : side.WellFormed) (total : StrictTotal comparator) (names : SideNames)
    (op : SideOp) : (side.step names op).WellFormed := by
  cases op with
  | new order => exact wf.new total names order
  | cancel orderId => exact wf.cancel names orderId
  | replace oldOrder newOrder => exact wf.replace total names oldOrder newOrder

end BookSide

namespace OrderBook

/-- A call changes its own side only, and does there what it does on that
side alone. -/
theorem step_bids (book : OrderBook) (op : BookOp) :
    (book.step op).bids = (op.onBids.map (book.bids.step bidNames)).getD book.bids := by
  cases op <;> rfl

theorem step_asks (book : OrderBook) (op : BookOp) :
    (book.step op).asks = (op.onAsks.map (book.asks.step askNames)).getD book.asks := by
  cases op <;> rfl

theorem step_asBid (book : OrderBook) (op : SideOp) :
    book.step op.asBid = { book with bids := book.bids.step bidNames op } := by
  cases op <;> rfl

theorem step_asAsk (book : OrderBook) (op : SideOp) :
    book.step op.asAsk = { book with asks := book.asks.step askNames op } := by
  cases op <;> rfl

/-- Both sides of a book are well formed. -/
structure WellFormed (book : OrderBook) : Prop where
  bids : book.bids.WellFormed
  asks : book.asks.WellFormed

theorem WellFormed.step {book : OrderBook} (wf : book.WellFormed) (op : BookOp) : (book.step op).WellFormed where
  bids := by
    rw [step_bids]
    cases op.onBids with
    | none => exact wf.bids
    | some sideOp => exact wf.bids.step bidComparator_strictTotal bidNames sideOp
  asks := by
    rw [step_asks]
    cases op.onAsks with
    | none => exact wf.asks
    | some sideOp => exact wf.asks.step askComparator_strictTotal askNames sideOp

theorem run_wellFormed (ops : List BookOp) : (run ops).WellFormed := by
  induction ops using List.reverseRecOn with
  | nil => exact ⟨BookSide.wellFormed_empty, BookSide.wellFormed_empty⟩
  | append_singleton ops op ih =>
    rw [run_snoc]
    exact ih.step op

end OrderBook

end Stakan
