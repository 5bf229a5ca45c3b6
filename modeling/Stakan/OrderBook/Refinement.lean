import Stakan.OrderBook.Side

namespace Stakan

/-- One side of the abstract book: what rests under an identifier. -/
abbrev RestingMap := ID → Option (Price × Quantity)

namespace RestingMap

/-- The calls a side acts on; every other call is refused. -/
def Admits (m : RestingMap) : SideOp → Prop
  | .new order => order.price ≠ 0 ∧ order.quantity ≠ 0 ∧ m order.id = none
  | .cancel orderId => m orderId ≠ none
  | .replace oldOrder newOrder =>
    newOrder.price ≠ 0 ∧ newOrder.quantity ≠ 0 ∧ oldOrder.id = newOrder.id ∧ m newOrder.id ≠ none

instance (m : RestingMap) (op : SideOp) : Decidable (m.Admits op) := by
  cases op <;> unfold Admits <;> infer_instance

/-- What an admitted call makes of the map. -/
def update (m : RestingMap) : SideOp → RestingMap
  | .new order => Function.update m order.id (some (order.price, order.quantity))
  | .cancel orderId => Function.update m orderId none
  | .replace _ newOrder => Function.update m newOrder.id (some (newOrder.price, newOrder.quantity))

def step (m : RestingMap) (op : SideOp) : RestingMap := if m.Admits op then m.update op else m

end RestingMap

/-- The identifier that a call looks up. A replacement that names two is refused. -/
def SideOp.orderId : SideOp → ID
  | .new order => order.id
  | .cancel orderId => orderId
  | .replace oldOrder _ => oldOrder.id

/-- What a call makes of the entry under that identifier. -/
def SideOp.entry (entry : Option (Price × Quantity)) : SideOp → Option (Price × Quantity)
  | .new order =>
    if order.price ≠ 0 ∧ order.quantity ≠ 0 ∧ entry = none then some (order.price, order.quantity) else entry
  | .cancel _ => none
  | .replace oldOrder newOrder =>
    if newOrder.price ≠ 0 ∧ newOrder.quantity ≠ 0 ∧ oldOrder.id = newOrder.id ∧ entry ≠ none then
      some (newOrder.price, newOrder.quantity)
    else entry

theorem RestingMap.entry_of_admits {m : RestingMap} {op : SideOp} (admitted : m.Admits op) :
    m.update op = Function.update m op.orderId (op.entry (m op.orderId)) := by
  cases op with
  | new order =>
    have entered : (SideOp.new order).entry (m order.id) = some (order.price, order.quantity) := if_pos admitted
    rw [SideOp.orderId, entered]
    rfl
  | cancel orderId => rfl
  | replace oldOrder newOrder =>
    obtain ⟨price, quantity, same, present⟩ := admitted
    have entered : (SideOp.replace oldOrder newOrder).entry (m newOrder.id) =
        some (newOrder.price, newOrder.quantity) := if_pos ⟨price, quantity, same, present⟩
    rw [SideOp.orderId, same, entered]
    rfl

theorem RestingMap.entry_of_not_admits {m : RestingMap} {op : SideOp} (refused : ¬m.Admits op) :
    op.entry (m op.orderId) = m op.orderId := by
  cases op with
  | new order => exact if_neg refused
  | cancel orderId => exact (not_not.mp refused).symm
  | replace oldOrder newOrder =>
    refine if_neg fun ⟨price, quantity, same, present⟩ => refused ⟨price, quantity, same, ?_⟩
    rwa [← same]

/-- A call, admitted or not, is an update of one entry that depends on that entry alone. -/
theorem RestingMap.step_eq_update (m : RestingMap) (op : SideOp) :
    m.step op = Function.update m op.orderId (op.entry (m op.orderId)) := by
  unfold step
  split
  next admitted => exact entry_of_admits admitted
  next refused => rw [entry_of_not_admits refused, Function.update_eq_self]

/-- The abstract book: two independent partial maps. -/
structure RestingMaps where
  bid : RestingMap := fun _ => none
  ask : RestingMap := fun _ => none

namespace RestingMaps

/-- A call goes to the map of its side and leaves the other map alone. -/
def step (maps : RestingMaps) : BookOp → RestingMaps
  | .newBid order => { maps with bid := maps.bid.step (.new order) }
  | .newAsk order => { maps with ask := maps.ask.step (.new order) }
  | .cancelBid orderId => { maps with bid := maps.bid.step (.cancel orderId) }
  | .cancelAsk orderId => { maps with ask := maps.ask.step (.cancel orderId) }
  | .replaceBid oldOrder newOrder => { maps with bid := maps.bid.step (.replace oldOrder newOrder) }
  | .replaceAsk oldOrder newOrder => { maps with ask := maps.ask.step (.replace oldOrder newOrder) }

def run (ops : List BookOp) : RestingMaps := ops.foldl step {}

theorem step_bid (maps : RestingMaps) (op : BookOp) :
    (maps.step op).bid = (op.onBids.map maps.bid.step).getD maps.bid := by cases op <;> rfl

theorem step_ask (maps : RestingMaps) (op : BookOp) :
    (maps.step op).ask = (op.onAsks.map maps.ask.step).getD maps.ask := by cases op <;> rfl

theorem run_snoc (ops : List BookOp) (op : BookOp) : run (ops ++ [op]) = (run ops).step op := by simp [run]

end RestingMaps

namespace BookSide

variable {comparator : Order → Order → Bool} {side : BookSide comparator}

/-- The map a side stands for. -/
def resting (side : BookSide comparator) : RestingMap :=
  fun id => (side.orders.find id).map fun o => (o.price, o.quantity)

theorem resting_eq_none {id : ID} : side.resting id = none ↔ side.orders.find id = none := by
  simp [resting]

theorem resting_update {orders orders' : OrderContainer comparator} {total total' : Quantity} {id : ID}
    {entry : Option Order} (found : orders'.find = Function.update orders.find id entry) :
    resting ⟨orders', total'⟩ =
      Function.update (resting ⟨orders, total⟩) id (entry.map fun o => (o.price, o.quantity)) := by
  funext id'
  simp only [resting, found, Function.update_apply]
  split <;> rfl

/-- The resting orders are the graph of the map. -/
theorem WellFormed.mem_iff_resting (wf : side.WellFormed) (o : Order) :
    o ∈ side.orders.ordered ↔ side.resting o.id = some (o.price, o.quantity) := by
  constructor
  · intro member
    simp [resting, wf.coherent.find_eq_some.mpr ⟨member, rfl⟩]
  · intro entry
    obtain ⟨found, atId, terms⟩ := Option.map_eq_some_iff.mp entry
    obtain ⟨member, same⟩ := wf.coherent.find_eq_some.mp atId
    obtain ⟨price, quantity⟩ := Prod.mk.inj terms
    have whole : found = o := by
      cases found; cases o
      simp_all
    rwa [← whole]

/-- If the map loses an entry, the side loses the order under it. -/
theorem WellFormed.perm_of_removed {after : BookSide comparator} (wf : side.WellFormed) (wf' : after.WellFormed)
    {id : ID} (removed : after.resting = Function.update side.resting id none) :
    after.orders.ordered.Perm (side.orders.ordered.filter fun o => o.id != id) := by
  have nodup := wf.coherent.ordered_nodup
  refine (List.perm_ext_iff_of_nodup wf'.coherent.ordered_nodup (nodup.filter _)).mpr fun o => ?_
  rw [wf'.mem_iff_resting, removed, List.mem_filter, wf.mem_iff_resting, bne_iff_ne]
  by_cases same : o.id = id
  · simp [same]
  · rw [Function.update_of_ne same]
    exact (and_iff_left same).symm

/-- If the map gets an entry, the side gets the order that it stands for. -/
theorem WellFormed.perm_of_updated {after : BookSide comparator} (wf : side.WellFormed) (wf' : after.WellFormed)
    {order : Order}
    (updated : after.resting = Function.update side.resting order.id (some (order.price, order.quantity))) :
    after.orders.ordered.Perm (order :: side.orders.ordered.filter fun o => o.id != order.id) := by
  have absent : order ∉ side.orders.ordered.filter fun o => o.id != order.id := by simp
  have nodup := List.nodup_cons.mpr ⟨absent, wf.coherent.ordered_nodup.filter _⟩
  refine (List.perm_ext_iff_of_nodup wf'.coherent.ordered_nodup nodup).mpr fun o => ?_
  rw [wf'.mem_iff_resting, updated, List.mem_cons, List.mem_filter, wf.mem_iff_resting, bne_iff_ne]
  by_cases same : o.id = order.id
  · rw [same, Function.update_self]
    cases o; cases order
    simp_all [eq_comm]
  · have other : o ≠ order := fun whole => same (congrArg Order.id whole)
    rw [Function.update_of_ne same]
    simp [same, other]

/-- A refused call leaves the side exactly as it was: every index and the counter. -/
theorem step_of_not_admits (names : SideNames) {op : SideOp} (refused : ¬side.resting.Admits op) :
    side.step names op = side := by
  cases op with
  | new order =>
    simp only [RestingMap.Admits, resting_eq_none] at refused
    exact (new_value names order side).trans (if_neg refused)
  | cancel orderId =>
    simp only [RestingMap.Admits, ne_eq, resting_eq_none, not_not] at refused
    simp only [BookSide.step, BookSide.call, cancel_value, refused]
  | replace oldOrder newOrder =>
    simp only [RestingMap.Admits, ne_eq, resting_eq_none] at refused
    simp only [BookSide.step, BookSide.call, replace_value]
    split
    next valid =>
      have absent : side.orders.find newOrder.id = none := by
        by_contra present
        exact refused ⟨valid.1, valid.2.1, valid.2.2, present⟩
      simp only [absent]
    next => rfl

/-- An admitted call does to the side what it does to the map. -/
theorem WellFormed.resting_of_admits (wf : side.WellFormed) (names : SideNames) {op : SideOp}
    (admitted : side.resting.Admits op) : (side.step names op).resting = side.resting.update op := by
  cases op with
  | new order =>
    simp only [RestingMap.Admits, resting_eq_none] at admitted
    simp only [BookSide.step, BookSide.call, new_value, if_pos admitted]
    exact resting_update (wf.coherent.find_insert admitted.2.2)
  | cancel orderId =>
    simp only [RestingMap.Admits, ne_eq, resting_eq_none] at admitted
    obtain ⟨o, found⟩ := Option.ne_none_iff_exists'.mp admitted
    simp only [BookSide.step, BookSide.call, cancel_value, found]
    exact resting_update (wf.coherent.find_erase orderId)
  | replace oldOrder newOrder =>
    simp only [RestingMap.Admits, ne_eq, resting_eq_none] at admitted
    obtain ⟨price, quantity, same, present⟩ := admitted
    obtain ⟨o, found⟩ := Option.ne_none_iff_exists'.mp present
    obtain ⟨member, atId⟩ := wf.coherent.find_eq_some.mp found
    have changed : (side.orders.modify o.id newOrder.assignTerms).find =
        Function.update side.orders.find o.id (some (newOrder.assignTerms o)) :=
      wf.coherent.find_modify member rfl
    rw [atId] at changed
    simp only [BookSide.step, BookSide.call, replace_value, if_pos (show _ ∧ _ ∧ _ from ⟨price, quantity, same⟩), found]
    exact resting_update changed

/-- One call on a side is one step of its map. -/
theorem WellFormed.resting_step (wf : side.WellFormed) (names : SideNames) (op : SideOp) :
    (side.step names op).resting = side.resting.step op := by
  unfold RestingMap.step
  split
  next admitted => exact wf.resting_of_admits names admitted
  next refused => rw [step_of_not_admits names refused]

end BookSide

namespace OrderBook

/-- One call on a book is one step of each map that it concerns. -/
theorem WellFormed.bids_resting_step {book : OrderBook} (wf : book.WellFormed) (op : BookOp) :
    (book.step op).bids.resting = (op.onBids.map book.bids.resting.step).getD book.bids.resting := by
  rw [step_bids]
  cases op.onBids with
  | none => rfl
  | some sideOp => exact wf.bids.resting_step bidNames sideOp

theorem WellFormed.asks_resting_step {book : OrderBook} (wf : book.WellFormed) (op : BookOp) :
    (book.step op).asks.resting = (op.onAsks.map book.asks.resting.step).getD book.asks.resting := by
  rw [step_asks]
  cases op.onAsks with
  | none => rfl
  | some sideOp => exact wf.asks.resting_step askNames sideOp

/-- The simulation, carried over runs of any length. -/
theorem run_resting (ops : List BookOp) :
    (run ops).bids.resting = (RestingMaps.run ops).bid ∧ (run ops).asks.resting = (RestingMaps.run ops).ask := by
  induction ops using List.reverseRecOn with
  | nil => exact ⟨rfl, rfl⟩
  | append_singleton ops op ih =>
    obtain ⟨bid, ask⟩ := ih
    have wf := run_wellFormed ops
    rw [run_snoc, RestingMaps.run_snoc, wf.bids_resting_step, wf.asks_resting_step, RestingMaps.step_bid,
      RestingMaps.step_ask, bid, ask]
    exact ⟨rfl, rfl⟩

/-- The book refines its two maps: after any run the resting orders of each
side are the graph of the side's map, and a call that its side's map does
not admit, or that goes to the other side, leaves the side untouched. -/
theorem refines_maps (ops : List BookOp) :
    (∀ o, o ∈ (run ops).bids.orders.ordered ↔ (RestingMaps.run ops).bid o.id = some (o.price, o.quantity)) ∧
    (∀ o, o ∈ (run ops).asks.orders.ordered ↔ (RestingMaps.run ops).ask o.id = some (o.price, o.quantity)) ∧
    ∀ op : BookOp,
      ((∀ sideOp, op.onBids = some sideOp → ¬(RestingMaps.run ops).bid.Admits sideOp) →
        ((run ops).step op).bids = (run ops).bids) ∧
      ((∀ sideOp, op.onAsks = some sideOp → ¬(RestingMaps.run ops).ask.Admits sideOp) →
        ((run ops).step op).asks = (run ops).asks) := by
  obtain ⟨bid, ask⟩ := run_resting ops
  have wf := run_wellFormed ops
  rw [← bid, ← ask]
  refine ⟨wf.bids.mem_iff_resting, wf.asks.mem_iff_resting, fun op => ⟨fun refused => ?_, fun refused => ?_⟩⟩
  · rw [step_bids]
    cases side : op.onBids with
    | none => rfl
    | some sideOp => exact BookSide.step_of_not_admits bidNames (refused sideOp side)
  · rw [step_asks]
    cases side : op.onAsks with
    | none => rfl
    | some sideOp => exact BookSide.step_of_not_admits askNames (refused sideOp side)

end OrderBook

end Stakan
