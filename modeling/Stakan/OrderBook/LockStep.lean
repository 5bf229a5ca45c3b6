import Stakan.OrderBook.Replacement

namespace Stakan
open MultiIndex (SameBelow)

/-- Two sides that differ at most in the index their comparators order. -/
structure BookSide.InStep {comparator comparator' : Order → Order → Bool} (side : BookSide comparator)
    (other : BookSide comparator') : Prop where
  orders : SameBelow side.orders other.orders
  total : side.total = other.total

namespace BookSide.InStep

variable {comparator comparator' : Order → Order → Bool}
variable {side : BookSide comparator} {other : BookSide comparator'}

theorem new (inStep : side.InStep other) (names names' : SideNames) (order : Order) :
    (side.new names order).value.InStep (other.new names' order).value := by
  rw [new_value, new_value, inStep.orders.find, inStep.total]
  split
  next => exact ⟨inStep.orders.insert order, rfl⟩
  next => exact inStep

theorem cancel (inStep : side.InStep other) (names names' : SideNames) (orderId : ID) :
    (side.cancel names orderId).value.InStep (other.cancel names' orderId).value := by
  rw [cancel_value, cancel_value, inStep.orders.find, inStep.total]
  cases other.orders.find orderId with
  | none => exact inStep
  | some resting => exact ⟨inStep.orders.erase orderId, rfl⟩

theorem replace (inStep : side.InStep other) (names names' : SideNames) (oldOrder newOrder : Order) :
    (side.replace names oldOrder newOrder).value.InStep (other.replace names' oldOrder newOrder).value := by
  rw [replace_value, replace_value, inStep.orders.find, inStep.total]
  split
  next =>
    cases other.orders.find newOrder.id with
    | none => exact inStep
    | some resting => exact ⟨inStep.orders.modify newOrder.id newOrder.assignTerms, rfl⟩
  next => exact inStep

/-- Every call keeps two sides in step, whatever their comparators and names. -/
theorem step (inStep : side.InStep other) (names names' : SideNames) (op : SideOp) :
    (side.step names op).InStep (other.step names' op) := by
  cases op with
  | new order => exact inStep.new names names' order
  | cancel orderId => exact inStep.cancel names names' orderId
  | replace oldOrder newOrder => exact inStep.replace names names' oldOrder newOrder

/-- The look-up reads the price index, which the comparator has no part in. -/
theorem level_eq (inStep : side.InStep other) (wf : side.WellFormed) (wf' : other.WellFormed) (price : Price)
    (message message' : String) :
    (getContainerPrice side.orders price message).value = (getContainerPrice other.orders price message').value := by
  rw [getContainerPrice_value wf.coherent, getContainerPrice_value wf'.coherent, inStep.orders.secondary]

end BookSide.InStep

theorem OrderBook.run_asBid_inStep (ops : List SideOp) :
    (run (ops.map SideOp.asBid)).bids.InStep (run (ops.map SideOp.asAsk)).asks := by
  induction ops using List.reverseRecOn with
  | nil => exact ⟨⟨rfl, rfl⟩, rfl⟩
  | append_singleton ops op ih =>
    rw [List.map_append, List.map_append, List.map_singleton, List.map_singleton, run_snoc, run_snoc, step_asBid,
      step_asAsk]
    exact ih.step bidNames askNames op

end Stakan
