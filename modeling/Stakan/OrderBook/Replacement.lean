import Stakan.OrderBook.Commutation

namespace Stakan

namespace RestingMap

variable {m : RestingMap}

/-- Two calls on one identifier are one update of its entry. -/
theorem step_step (m : RestingMap) (op op' : SideOp) (same : op.orderId = op'.orderId) :
    (m.step op).step op' = Function.update m op.orderId (op'.entry (op.entry (m op.orderId))) := by
  rw [step_eq_update _ op', step_eq_update m op, ← same, Function.update_self, Function.update_idem]

theorem replace_eq_cancel_new {oldOrder newOrder : Order} (same : oldOrder.id = newOrder.id)
    (price : newOrder.price ≠ 0) (quantity : newOrder.quantity ≠ 0) (resting : m newOrder.id ≠ none) :
    m.step (.replace oldOrder newOrder) = (m.step (.cancel oldOrder.id)).step (.new newOrder) := by
  have entered : (SideOp.replace oldOrder newOrder).entry (m oldOrder.id) =
      some (newOrder.price, newOrder.quantity) := if_pos ⟨price, quantity, same, by rwa [same]⟩
  have reentered : (SideOp.new newOrder).entry none = some (newOrder.price, newOrder.quantity) :=
    if_pos ⟨price, quantity, rfl⟩
  calc m.step (.replace oldOrder newOrder)
      = Function.update m oldOrder.id ((SideOp.replace oldOrder newOrder).entry (m oldOrder.id)) := step_eq_update m _
    _ = Function.update m oldOrder.id ((SideOp.new newOrder).entry none) := by rw [entered, reentered]
    _ = (m.step (.cancel oldOrder.id)).step (.new newOrder) :=
      (step_step m (.cancel oldOrder.id) (.new newOrder) same).symm

theorem new_cancel {order : Order} (absent : m order.id = none) :
    (m.step (.new order)).step (.cancel order.id) = m := by
  rw [step_step m (.new order) (.cancel order.id) rfl]
  exact Function.update_eq_self_iff.mpr absent.symm

/-- Whether or not the first replacement goes through, the second one restores the entry. -/
theorem replace_back {order oldOrder newOrder oldOrder' : Order} (price : order.price ≠ 0)
    (quantity : order.quantity ≠ 0) (resting : m order.id = some (order.price, order.quantity))
    (named : newOrder.id = order.id) (named' : oldOrder'.id = order.id) :
    (m.step (.replace oldOrder newOrder)).step (.replace oldOrder' order) = m := by
  by_cases same : oldOrder.id = order.id
  · have stays : (SideOp.replace oldOrder newOrder).entry (m order.id) ≠ none := by
      rw [resting, SideOp.entry]
      split <;> exact Option.some_ne_none _
    have restored : (SideOp.replace oldOrder' order).entry
        ((SideOp.replace oldOrder newOrder).entry (m order.id)) = m order.id := by
      rw [resting] at stays ⊢
      exact if_pos ⟨price, quantity, named', stays⟩
    rw [step_step m (.replace oldOrder newOrder) (.replace oldOrder' order) (same.trans named'.symm),
      SideOp.orderId, same, restored]
    exact Function.update_eq_self _ m
  · have refused : m.step (.replace oldOrder newOrder) = m :=
      if_neg fun admitted => same (admitted.2.2.1.trans named)
    have restored : (SideOp.replace oldOrder' order).entry (m oldOrder'.id) = m oldOrder'.id := by
      rw [named', resting]
      exact if_pos ⟨price, quantity, named', Option.some_ne_none _⟩
    rw [refused, step_eq_update, SideOp.orderId, restored]
    exact Function.update_eq_self _ m

end RestingMap

namespace OrderBook

variable {book : OrderBook}

theorem WellFormed.foldl_asBid (wf : book.WellFormed) (ops : List SideOp) :
    ((ops.map SideOp.asBid).foldl OrderBook.step book).WellFormed ∧
      ((ops.map SideOp.asBid).foldl OrderBook.step book).bids.resting = ops.foldl RestingMap.step book.bids.resting ∧
      ((ops.map SideOp.asBid).foldl OrderBook.step book).asks = book.asks := by
  induction ops generalizing book with
  | nil => exact ⟨wf, rfl, rfl⟩
  | cons op ops ih =>
    obtain ⟨wellFormed, bids, asks⟩ := ih (wf.step op.asBid)
    refine ⟨wellFormed, bids.trans ?_, asks.trans ?_⟩
    · rw [step_asBid, wf.bids.resting_step, List.foldl_cons]
    · rw [step_asBid]

theorem WellFormed.foldl_asAsk (wf : book.WellFormed) (ops : List SideOp) :
    ((ops.map SideOp.asAsk).foldl OrderBook.step book).WellFormed ∧
      ((ops.map SideOp.asAsk).foldl OrderBook.step book).asks.resting = ops.foldl RestingMap.step book.asks.resting ∧
      ((ops.map SideOp.asAsk).foldl OrderBook.step book).bids = book.bids := by
  induction ops generalizing book with
  | nil => exact ⟨wf, rfl, rfl⟩
  | cons op ops ih =>
    obtain ⟨wellFormed, asks, bids⟩ := ih (wf.step op.asAsk)
    refine ⟨wellFormed, asks.trans ?_, bids.trans ?_⟩
    · rw [step_asAsk, wf.asks.resting_step, List.foldl_cons]
    · rw [step_asAsk]

/-- Calls on one side that make the same of its map leave books that are alike. -/
theorem WellFormed.alike_asBid (wf : book.WellFormed) (ops ops' : List SideOp)
    (same : ops.foldl RestingMap.step book.bids.resting = ops'.foldl RestingMap.step book.bids.resting) :
    Alike ((ops.map SideOp.asBid).foldl OrderBook.step book) ((ops'.map SideOp.asBid).foldl OrderBook.step book) := by
  obtain ⟨first, bids, asks⟩ := wf.foldl_asBid ops
  obtain ⟨second, bids', asks'⟩ := wf.foldl_asBid ops'
  exact first.alike second (by rw [bids, bids', same]) (by rw [asks, asks'])

theorem WellFormed.alike_asAsk (wf : book.WellFormed) (ops ops' : List SideOp)
    (same : ops.foldl RestingMap.step book.asks.resting = ops'.foldl RestingMap.step book.asks.resting) :
    Alike ((ops.map SideOp.asAsk).foldl OrderBook.step book) ((ops'.map SideOp.asAsk).foldl OrderBook.step book) := by
  obtain ⟨first, asks, bids⟩ := wf.foldl_asAsk ops
  obtain ⟨second, asks', bids'⟩ := wf.foldl_asAsk ops'
  exact first.alike second (by rw [bids, bids']) (by rw [asks, asks', same])

/-- How calls on one side make up for each other: a replacement for a cancel
and a new order, a cancel for a new order, and a replacement for the one before. -/
structure MadeUpFor (book : OrderBook) (call : SideOp → BookOp) (orders : List Order) : Prop where
  replaced : ∀ oldOrder newOrder : Order, oldOrder.id = newOrder.id → newOrder.price ≠ 0 → newOrder.quantity ≠ 0 →
    (∃ o ∈ orders, o.id = newOrder.id) → Alike (book.step (call (.replace oldOrder newOrder)))
      ((book.step (call (.cancel oldOrder.id))).step (call (.new newOrder)))
  cancelled : ∀ order : Order, order.price ≠ 0 → order.quantity ≠ 0 → (∀ o ∈ orders, o.id ≠ order.id) →
    Alike ((book.step (call (.new order))).step (call (.cancel order.id))) book
  replacedBack : ∀ order ∈ orders, ∀ oldOrder newOrder oldOrder' : Order, newOrder.id = order.id →
    oldOrder'.id = order.id → Alike ((book.step (call (.replace oldOrder newOrder))).step
      (call (.replace oldOrder' order))) book

/-- On a side whose map tells everything, the laws of the map are laws of the book. -/
theorem madeUpFor_of_map {comparator : Order → Order → Bool} {side : BookSide comparator} (wf : side.WellFormed)
    {call : SideOp → BookOp} (alike : ∀ ops ops' : List SideOp,
      ops.foldl RestingMap.step side.resting = ops'.foldl RestingMap.step side.resting →
        Alike ((ops.map call).foldl step book) ((ops'.map call).foldl step book)) :
    MadeUpFor book call side.orders.ordered where
  replaced oldOrder newOrder same price quantity := by
    rintro ⟨o, member, named⟩
    have resting := (wf.mem_iff_resting o).mp member
    rw [named] at resting
    refine alike [.replace oldOrder newOrder] [.cancel oldOrder.id, .new newOrder] ?_
    exact RestingMap.replace_eq_cancel_new same price quantity (by rw [resting]; exact Option.some_ne_none _)
  cancelled order _ _ absent := by
    have none := BookSide.resting_eq_none.mpr (wf.coherent.find_eq_none.mpr absent)
    exact alike [.new order, .cancel order.id] [] (RestingMap.new_cancel none)
  replacedBack order member oldOrder newOrder oldOrder' named named' := by
    obtain ⟨price, quantity⟩ := wf.valid order member
    have resting := (wf.mem_iff_resting order).mp member
    refine alike [.replace oldOrder newOrder, .replace oldOrder' order] [] ?_
    exact RestingMap.replace_back price quantity resting named named'

/-- After any run, on both sides. -/
theorem run_madeUpFor (ops : List BookOp) :
    MadeUpFor (run ops) SideOp.asBid (run ops).bids.orders.ordered ∧
    MadeUpFor (run ops) SideOp.asAsk (run ops).asks.orders.ordered := by
  have wf := run_wellFormed ops
  exact ⟨madeUpFor_of_map wf.bids wf.alike_asBid, madeUpFor_of_map wf.asks wf.alike_asAsk⟩

end OrderBook

end Stakan
