import Stakan.OrderBook.Observations

namespace Stakan

/-- The calls act on different sides, or look up different identifiers. -/
def BookOp.Independent (op op' : BookOp) : Prop :=
  (∀ a b, op.onBids = some a → op'.onBids = some b → a.orderId ≠ b.orderId) ∧
    ∀ a b, op.onAsks = some a → op'.onAsks = some b → a.orderId ≠ b.orderId

/-- Updates of different entries commute. -/
theorem RestingMap.step_comm (m : RestingMap) {op op' : SideOp} (different : op.orderId ≠ op'.orderId) :
    (m.step op).step op' = (m.step op').step op := by
  rw [step_eq_update m op, step_eq_update _ op', step_eq_update m op', step_eq_update _ op,
    Function.update_of_ne different.symm, Function.update_of_ne different]
  exact Function.update_comm different _ _ m

namespace OrderBook

variable {book : OrderBook}

theorem WellFormed.alike_of_independent (wf : book.WellFormed) {op op' : BookOp} (independent : op.Independent op') :
    Alike ((book.step op).step op') ((book.step op').step op) := by
  obtain ⟨bids, asks⟩ := independent
  have first := wf.step op
  have second := wf.step op'
  refine (first.step op').alike (second.step op) ?_ ?_
  · rw [first.bids_resting_step, second.bids_resting_step, wf.bids_resting_step, wf.bids_resting_step]
    cases here : op.onBids <;> cases there : op'.onBids <;> try rfl
    exact RestingMap.step_comm _ (bids _ _ here there)
  · rw [first.asks_resting_step, second.asks_resting_step, wf.asks_resting_step, wf.asks_resting_step]
    cases here : op.onAsks <;> cases there : op'.onAsks <;> try rfl
    exact RestingMap.step_comm _ (asks _ _ here there)

/-- In a book that any run has left, two independent calls can change places. -/
theorem run_commute (ops : List BookOp) (op op' : BookOp) (independent : op.Independent op') :
    Alike (((run ops).step op).step op') (((run ops).step op').step op) :=
  (run_wellFormed ops).alike_of_independent independent

/-- A bid is replaced and another one, at the same price, is cancelled. -/
theorem replace_and_cancel_commute :
    let book := run [.newBid ⟨1, 100, 10⟩, .newBid ⟨2, 100, 20⟩]
    Alike ((book.step (.replaceBid ⟨1, 100, 10⟩ ⟨1, 101, 5⟩)).step (.cancelBid 2))
      ((book.step (.cancelBid 2)).step (.replaceBid ⟨1, 100, 10⟩ ⟨1, 101, 5⟩)) := by
  refine run_commute _ _ _ ⟨fun a b first second => ?_, fun a b first => ?_⟩
  · cases first
    cases second
    decide
  · cases first

end OrderBook

end Stakan
