import Mathlib.Algebra.Order.BigOperators.Group.List
import Stakan.Library.LabelledRun
import Stakan.OrderBook.MarketData
import Stakan.OrderBook.Refinement

namespace Stakan
open LabelledRun (Always Guarded exec)

/-- The arguments of the constructor that takes the quantity as an `int`. -/
structure IntOrder where
  number : ID
  p : Price
  qty : Int32
  deriving DecidableEq

def IntOrder.order (built : IntOrder) : Order := Order.ofInt built.number built.p built.qty

/-- The calls on a side whose orders are built that way. -/
inductive IntOp
  | new (order : IntOrder)
  | cancel (orderId : ID)
  | replace (oldOrder newOrder : IntOrder)
  deriving DecidableEq

def IntOp.sideOp : IntOp → SideOp
  | .new order => .new order.order
  | .cancel orderId => .cancel orderId
  | .replace oldOrder newOrder => .replace oldOrder.order newOrder.order

/-- The order that a call puts into the book if its side admits it. -/
def IntOp.put : IntOp → Option IntOrder
  | .new order => some order
  | .cancel _ => none
  | .replace _ newOrder => some newOrder

inductive IntCall
  | onBids (op : IntOp)
  | onAsks (op : IntOp)
  deriving DecidableEq

def IntCall.bookOp : IntCall → BookOp
  | .onBids op => op.sideOp.asBid
  | .onAsks op => op.sideOp.asAsk

def quantitySum (orders : List Order) : ℕ := (orders.map fun o => o.quantity.toNat).sum

/-- The order has the positive quantity it was built from. There is at most
one `int` that the quantity can come from: the conversion loses nothing. -/
def Order.BuiltPositive (o : Order) : Prop :=
  ∃ built : IntOrder, o = built.order ∧ 0 < built.qty.toInt ∧ (o.quantity.toNat : ℤ) = built.qty.toInt

/-- The figures of an update fit together. -/
structure MDUpdate.Consistent (u : MDUpdate) : Prop where
  bid_qty : u.bestBidQty ≤ u.totalBidQty
  ask_qty : u.bestAskQty ≤ u.totalAskQty
  bid_present : u.bestBidPrice ≠ 0 → u.bestBidQty ≠ 0 ∧ u.totalBidQty ≠ 0
  ask_present : u.bestAskPrice ≠ 0 → u.bestAskQty ≠ 0 ∧ u.totalAskQty ≠ 0

structure OrderBook.QuantitiesSound (book : OrderBook) : Prop where
  update : ∀ u, book.generateMDUpdate.value = some u → u.Consistent
  bids : ∀ o ∈ book.bids.orders.ordered, o.BuiltPositive
  asks : ∀ o ∈ book.asks.orders.ordered, o.BuiltPositive

theorem IntOrder.quantity_toNat {built : IntOrder} (nonneg : 0 ≤ built.qty.toInt) :
    (built.order.quantity.toNat : ℤ) = built.qty.toInt := by
  have wide : built.qty.toInt64.toInt = built.qty.toInt := Int32.toInt_toInt64 built.qty
  have above : 0 ≤ built.qty.toInt64 := Int64.le_iff_toInt_le.mpr (by rw [wide]; exact nonneg)
  have value : built.order.quantity.toNat = built.qty.toInt64.toInt.toNat := Int64.toNat_toUInt64_of_le above
  rw [value, wide, Int.toNat_of_nonneg nonneg]

theorem IntOrder.builtPositive {built : IntOrder} (positive : 0 < built.qty.toInt) : built.order.BuiltPositive :=
  ⟨built, rfl, positive, quantity_toNat positive.le⟩

/-- Sign extension keeps different `int`s apart, so only a positive one gives such an order. -/
theorem IntOrder.positive_of_builtPositive {built : IntOrder} (sound : built.order.BuiltPositive) :
    0 < built.qty.toInt := by
  obtain ⟨⟨number, p, qty⟩, same, positive, _⟩ := sound
  have quantity : built.qty.toInt64.toUInt64 = qty.toInt64.toUInt64 := congrArg Order.quantity same
  have wide : built.qty.toInt64 = qty.toInt64 := by
    rw [← Int64.toInt64_toUInt64 built.qty.toInt64, quantity, Int64.toInt64_toUInt64]
  rw [← Int32.toInt_toInt64, wide, Int32.toInt_toInt64]
  exact positive

section Side

variable {comparator : Order → Order → Bool} {side : BookSide comparator}

/-- A call that the side admits puts no order with a quantity of zero or less into it. -/
def IntOp.PutsPositive (side : BookSide comparator) (op : IntOp) : Prop :=
  side.resting.Admits op.sideOp → ∀ built ∈ op.put, 0 < built.qty.toInt

/-- The quantity it puts there and those of the other orders add up to less than `2^64`. -/
def IntOp.PutsFitting (side : BookSide comparator) (op : IntOp) : Prop :=
  side.resting.Admits op.sideOp → ∀ built ∈ op.put,
    quantitySum (side.orders.ordered.filter fun o => o.id != built.number) + built.order.quantity.toNat < 2 ^ 64

/-- What the calls keep: orders with the quantities they were built from, and no sum that wraps. -/
structure BookSide.Sound (side : BookSide comparator) : Prop where
  wellFormed : side.WellFormed
  built : ∀ o ∈ side.orders.ordered, o.BuiltPositive
  bounded : quantitySum side.orders.ordered < 2 ^ 64

theorem quantitySum_filter_le (orders : List Order) (test : Order → Bool) :
    quantitySum (orders.filter test) ≤ quantitySum orders :=
  (List.filter_sublist.map _).sum_le_sum fun _ _ => Nat.zero_le _

theorem quantitySum_perm {orders orders' : List Order} (perm : orders.Perm orders') :
    quantitySum orders = quantitySum orders' := (perm.map _).sum_eq

theorem IntOp.update_of_put {op : IntOp} {built : IntOrder} (put : op.put = some built) (m : RestingMap) :
    m.update op.sideOp = Function.update m built.order.id (some (built.order.price, built.order.quantity)) := by
  cases op with
  | new order =>
    cases Option.some.inj put
    rfl
  | cancel orderId => contradiction
  | replace oldOrder newOrder =>
    cases Option.some.inj put
    rfl

/-- An admitted call that puts an order into the side leaves it there, and
of the other orders those with another identifier. -/
theorem BookSide.WellFormed.perm_of_put (wf : side.WellFormed) (total : OrderedIndex.StrictTotal comparator)
    (names : SideNames) {op : IntOp} {built : IntOrder} (put : op.put = some built)
    (admitted : side.resting.Admits op.sideOp) : (side.step names op.sideOp).orders.ordered.Perm
      (built.order :: side.orders.ordered.filter fun o => o.id != built.number) := by
  refine wf.perm_of_updated (wf.step total names op.sideOp) ?_
  rw [wf.resting_of_admits names admitted, IntOp.update_of_put put]

theorem BookSide.Sound.step (sound : side.Sound) (total : OrderedIndex.StrictTotal comparator) (names : SideNames)
    {op : IntOp} (positive : op.PutsPositive side) (fitting : op.PutsFitting side) :
    (side.step names op.sideOp).Sound := by
  have wf := sound.wellFormed
  have wf' := wf.step total names op.sideOp
  by_cases admitted : side.resting.Admits op.sideOp
  · cases put : op.put with
    | some built =>
      have perm := wf.perm_of_put total names put admitted
      refine ⟨wf', fun o member => ?_, ?_⟩
      · rcases List.mem_cons.mp (perm.mem_iff.mp member) with rfl | old
        · exact IntOrder.builtPositive (positive admitted built put)
        · exact sound.built o (List.mem_filter.mp old).1
      · have fits := fitting admitted built put
        rw [quantitySum_perm perm, quantitySum, List.map_cons, List.sum_cons]
        rw [quantitySum] at fits
        omega
    | none =>
      obtain ⟨orderId, rfl⟩ : ∃ orderId, op = .cancel orderId := by
        cases op with
        | cancel orderId => exact ⟨orderId, rfl⟩
        | new order => contradiction
        | replace oldOrder newOrder => contradiction
      have perm := wf.perm_of_removed wf' (wf.resting_of_admits names admitted)
      refine ⟨wf', fun o member => sound.built o (List.mem_filter.mp (perm.mem_iff.mp member)).1, ?_⟩
      rw [quantitySum_perm perm]
      exact lt_of_le_of_lt (quantitySum_filter_le _ _) sound.bounded
  · rw [BookSide.step_of_not_admits names admitted]
    exact sound

theorem BookSide.Sound.total_toNat (sound : side.Sound) : side.total.toNat = quantitySum side.orders.ordered := by
  rw [sound.wellFormed.total_toNat]
  exact Nat.mod_eq_of_lt sound.bounded

theorem BookSide.Sound.level_toNat (sound : side.Sound) (price : Price) (message : String) :
    (getContainerPrice side.orders price message).value.quantity.toNat =
      quantitySum (atPrice price side.orders.ordered) := by
  rw [sound.wellFormed.level_quantity]
  exact Nat.mod_eq_of_lt (lt_of_le_of_lt (quantitySum_filter_le _ _) sound.bounded)

theorem BookSide.Sound.level_le_total (sound : side.Sound) (price : Price) (message : String) :
    (getContainerPrice side.orders price message).value.quantity ≤ side.total := by
  rw [UInt64.le_iff_toNat_le, sound.level_toNat, sound.total_toNat]
  exact quantitySum_filter_le _ _

/-- An order at the level shows in its quantity. -/
theorem BookSide.Sound.level_ne_zero (sound : side.Sound) {o : Order} (member : o ∈ side.orders.ordered)
    (message : String) : (getContainerPrice side.orders o.price message).value.quantity ≠ 0 := by
  intro zero
  have level := sound.level_toNat o.price message
  have atLevel : o ∈ atPrice o.price side.orders.ordered := List.mem_filter.mpr ⟨member, beq_self_eq_true _⟩
  have counted : o.quantity.toNat ≤ quantitySum (atPrice o.price side.orders.ordered) :=
    List.le_sum_of_mem (List.mem_map_of_mem atLevel)
  obtain ⟨built, _, positive, value⟩ := sound.built o member
  rw [zero] at level
  have : (0 : Quantity).toNat = 0 := rfl
  omega

theorem BookSide.Sound.present (sound : side.Sound) (message message' : String)
    (nonzero : (side.best message).value.price ≠ 0) :
    (getContainerPrice side.orders (side.best message).value.price message').value.quantity ≠ 0 ∧ side.total ≠ 0 := by
  rw [best_value] at nonzero ⊢
  cases atHead : side.orders.ordered with
  | nil =>
    rw [atHead] at nonzero
    exact absurd rfl nonzero
  | cons first rest =>
    have level := sound.level_ne_zero (o := first) (by simp [atHead]) message'
    refine ⟨level, fun zero => ?_⟩
    have below := sound.level_le_total first.price message'
    rw [zero] at below
    exact level (UInt64.le_antisymm below UInt64.zero_le)

end Side

namespace OrderBook

/-- One call on a book. It always returns. -/
def intStep (book : OrderBook) (call : IntCall) : Option OrderBook := some (book.step call.bookOp)

def PutsPositive (book : OrderBook) : IntCall → Prop
  | .onBids op => op.PutsPositive book.bids
  | .onAsks op => op.PutsPositive book.asks

def PutsFitting (book : OrderBook) : IntCall → Prop
  | .onBids op => op.PutsFitting book.bids
  | .onAsks op => op.PutsFitting book.asks

structure Sound (book : OrderBook) : Prop where
  bids : book.bids.Sound
  asks : book.asks.Sound

theorem sound_empty : Sound {} := by
  have side : ∀ comparator, BookSide.Sound ({} : BookSide comparator) := fun _ =>
    ⟨BookSide.wellFormed_empty, fun o member => absurd member List.not_mem_nil, Nat.two_pow_pos 64⟩
  exact ⟨side _, side _⟩

variable {book : OrderBook}

theorem Sound.step (sound : book.Sound) {call : IntCall} (positive : book.PutsPositive call)
    (fitting : book.PutsFitting call) : (book.step call.bookOp).Sound := by
  cases call with
  | onBids op =>
    have bids := sound.bids.step bidComparator_strictTotal bidNames positive fitting
    rw [IntCall.bookOp, step_asBid]
    exact ⟨bids, sound.asks⟩
  | onAsks op =>
    have asks := sound.asks.step askComparator_strictTotal askNames positive fitting
    rw [IntCall.bookOp, step_asAsk]
    exact ⟨sound.bids, asks⟩

theorem Sound.quantitiesSound (sound : book.Sound) : book.QuantitiesSound where
  update u update := by
    rw [generateMDUpdate_value] at update
    split at update
    next => contradiction
    next =>
      cases Option.some.inj update
      exact ⟨sound.bids.level_le_total _ _, sound.asks.level_le_total _ _, sound.bids.present _ _,
        sound.asks.present _ _⟩
  bids := sound.bids.built
  asks := sound.asks.built

/-- An order built from a negative `int` shows as soon as it rests. -/
theorem WellFormed.not_quantitiesSound (wf : book.WellFormed) {call : IntCall} (negative : ¬book.PutsPositive call) :
    ¬(book.step call.bookOp).QuantitiesSound := by
  intro sound
  cases call with
  | onBids op =>
    refine negative fun admitted built put => IntOrder.positive_of_builtPositive (sound.bids built.order ?_)
    rw [IntCall.bookOp, step_asBid]
    exact (wf.bids.perm_of_put bidComparator_strictTotal bidNames put admitted).mem_iff.mpr List.mem_cons_self
  | onAsks op =>
    refine negative fun admitted built put => IntOrder.positive_of_builtPositive (sound.asks built.order ?_)
    rw [IntCall.bookOp, step_asAsk]
    exact (wf.asks.perm_of_put askComparator_strictTotal askNames put admitted).mem_iff.mpr List.mem_cons_self

theorem exec_intStep (book : OrderBook) (calls : List IntCall) :
    ∃ last, exec intStep book calls = some last := by
  induction calls generalizing book with
  | nil => exact ⟨book, rfl⟩
  | cons call calls ih =>
    obtain ⟨last, run⟩ := ih (book.step call.bookOp)
    exact ⟨last, LabelledRun.exec_cons_of rfl run⟩

/-- As long as admitted calls put positive quantities into the book that add
up to less than `2^64`, every update fits together; and only positive
quantities ever rest as they were given. -/
theorem always_quantitiesSound (calls : List IntCall) :
    (Guarded intStep (fun book call => book.PutsPositive call ∧ book.PutsFitting call) {} calls →
      Always intStep QuantitiesSound {} calls) ∧
    (Always intStep QuantitiesSound {} calls → Guarded intStep PutsPositive {} calls) := by
  constructor
  · intro guarded
    have sound : Always intStep Sound {} calls := by
      refine guarded.always ?_ sound_empty
      intro book call after sound met moved
      cases Option.some.inj moved
      exact sound.step met.1 met.2
    exact sound.mono fun _ => Sound.quantitiesSound
  · intro always
    obtain ⟨last, run⟩ := exec_intStep {} calls
    have kept : ∀ book call after, WellFormed book → book.PutsPositive call → intStep book call = some after →
        WellFormed after := by
      intro book call after wf _ moved
      cases Option.some.inj moved
      exact wf.step call.bookOp
    refine always.guarded_of_invariant kept ?_ run (run_wellFormed [])
    intro book call after wf negative moved
    cases Option.some.inj moved
    exact wf.not_quantitiesSound negative

/-- A bid of quantity `-1` rests as one of `2^64 - 1`. With the next bid the
total wraps around to less than the best quantity. -/
theorem negative_quantity_rests : ¬∀ calls, Always intStep QuantitiesSound {} calls := by
  intro claim
  let calls : List IntCall := [.onBids (.new ⟨1, 100, -1⟩), .onBids (.new ⟨2, 99, 2⟩)]
  obtain ⟨book, run⟩ : ∃ book, exec intStep {} calls = some book ∧
      book.generateMDUpdate.value = some ⟨100, 18446744073709551615, 0, 0, 1, 0⟩ := ⟨_, rfl, by decide⟩
  have consistent := (claim calls calls [] book (List.append_nil _).symm run.1).update _ run.2
  exact absurd consistent.bid_qty (by decide)

end OrderBook

end Stakan
