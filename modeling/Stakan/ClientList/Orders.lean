import Stakan.ClientList.OrderSide

namespace Stakan
open LabelledRun

/-- The calls that read or change a client's orders. -/
def ClientListOp.OnOrders : ClientListOp → Prop
  | .addBid .. | .addAsk .. | .removeBid .. | .removeAsk .. | .getBids _ | .getAsks _ => True
  | _ => False

/-- An order that is added is an object. -/
def ClientListOp.GivesOrder : ClientListOp → Prop
  | .addBid _ order | .addAsk _ order => order.isSome
  | _ => True

namespace ClientList

/-- Every client's orders are in sync on both sides, and can be read. -/
def OrdersInSync (list : ClientList) : Prop :=
  ∀ c ctx, list.clients.lookup c = some ctx → ctx.bids.InSync ∧ ctx.asks.InSync ∧
    (∃ bids, list.getBids c = .ok bids) ∧ ∃ asks, list.getAsks c = .ok asks

/-- Every call on orders that is made returns or throws. -/
def OrderCallsEnd (evaluation : OperandOrder) (ops : List ClientListOp) : Prop :=
  Guarded (stepBy evaluation) (fun list op => op.OnOrders → (list.stepBy evaluation op).isSome) {} ops

/-- Calls on orders end, and leave the orders in sync. -/
structure OrdersKept (evaluation : OperandOrder) (ops : List ClientListOp) : Prop where
  calls_end : OrderCallsEnd evaluation ops
  in_sync : Always (stepBy evaluation) OrdersInSync {} ops

/-- A registered client is given an order. -/
def AddsOrder (list : ClientList) : ClientListOp → Prop
  | .addBid id _ | .addAsk id _ => list.hasClient id = true
  | _ => False

/-- An order that is added is not yet held by its client on that side. -/
def AddsNewOrder (list : ClientList) : ClientListOp → Prop
  | .addBid id (some bid) => ∀ ctx, list.clients.lookup id = some ctx → bid.order.id ∉ ctx.bids.byId
  | .addAsk id (some ask) => ∀ ctx, list.clients.lookup id = some ctx → ask.order.id ∉ ctx.asks.byId
  | _ => True

/-- The key of an order that is added is read while its pointer shows the order. -/
def ReadsKeyFirst (evaluation : OperandOrder) (list : ClientList) (op : ClientListOp) : Prop :=
  AddsOrder list op → evaluation = .leftFirst

/-- Every client's orders are sound on both sides. -/
def OrdersSound (list : ClientList) : Prop :=
  ∀ c ctx, list.clients.lookup c = some ctx → ctx.bids.Sound ∧ ctx.asks.Sound

variable {evaluation : OperandOrder} {list : ClientList}

theorem OrdersSound.ordersInSync (sound : list.OrdersSound) : list.OrdersInSync := by
  intro c ctx registered
  obtain ⟨bids, asks⟩ := sound c ctx registered
  have found : list.context c = .ok ctx := by rw [context, registered]
  refine ⟨bids.toInSync, asks.toInSync, ?_, ?_⟩
  · rw [getBids, found]
    exact bids.orders_ok
  · rw [getAsks, found]
    exact asks.orders_ok

theorem isSome_stepBy {op : ClientListOp} :
    (list.stepBy evaluation op).isSome ↔ (list.callBy evaluation op).1 ≠ .error .undefinedBehaviour := by
  unfold stepBy
  split
  next undefined => simp [undefined]
  next result _ defined called => simpa [called] using defined

/-- A change of one side goes through wherever it does for the side alone. -/
theorem updateSide_defined (side : ClientContext → OrderSide) (put : ClientContext → OrderSide → ClientContext)
    (change : OrderSide → Except Failure OrderSide) {id : ClientId}
    (changes : ∀ ctx, list.clients.lookup id = some ctx → ∃ changed, change (side ctx) = .ok changed) :
    (list.updateContext id fun ctx => return put ctx (← change (side ctx))).1 ≠ .error .undefinedBehaviour := by
  unfold updateContext context
  cases registered : list.clients.lookup id with
  | none => simp [bind, Except.bind, noClient]
  | some ctx =>
    obtain ⟨changed, done⟩ := changes ctx registered
    simp [bind, Except.bind, pure, Except.pure, done]

theorem readSide_defined {side : ClientContext → OrderSide} {id : ClientId}
    (reads : ∀ ctx, list.clients.lookup id = some ctx → ∃ orders, (side ctx).orders = .ok orders) :
    ((list.context id >>= fun ctx => (side ctx).orders).map fun _ => ()) ≠ .error .undefinedBehaviour := by
  unfold context
  cases registered : list.clients.lookup id with
  | none => simp [bind, Except.bind, Except.map, noClient]
  | some ctx =>
    obtain ⟨orders, done⟩ := reads ctx registered
    simp [bind, Except.bind, Except.map, done]

/-- While the orders are sound, a call on orders ends, unless it reads the key of an order after its move. -/
theorem OrdersSound.step_defined {op : ClientListOp} (sound : list.OrdersSound)
    (first : list.ReadsKeyFirst evaluation op) (given : op.GivesOrder) (on_orders : op.OnOrders) :
    (list.stepBy evaluation op).isSome := by
  refine isSome_stepBy.mpr ?_
  cases op <;> try exact on_orders.elim
  case addBid id bid =>
    obtain ⟨ref, rfl⟩ := Option.isSome_iff_exists.mp given
    refine updateSide_defined ClientContext.bids (fun ctx bids => { ctx with bids })
      (·.addOrder evaluation (some ref)) fun ctx registered => ?_
    obtain rfl := first (by rw [AddsOrder, hasClient, registered]; rfl)
    exact ⟨_, OrderSide.addOrder_leftFirst ctx.bids ref⟩
  case addAsk id ask =>
    obtain ⟨ref, rfl⟩ := Option.isSome_iff_exists.mp given
    refine updateSide_defined ClientContext.asks (fun ctx asks => { ctx with asks })
      (·.addOrder evaluation (some ref)) fun ctx registered => ?_
    obtain rfl := first (by rw [AddsOrder, hasClient, registered]; rfl)
    exact ⟨_, OrderSide.addOrder_leftFirst ctx.asks ref⟩
  case removeBid id orderId =>
    exact updateSide_defined ClientContext.bids (fun ctx bids => { ctx with bids }) (·.removeOrder orderId)
      fun ctx registered => (sound id ctx registered).1.removeOrder_ok orderId
  case removeAsk id orderId =>
    exact updateSide_defined ClientContext.asks (fun ctx asks => { ctx with asks }) (·.removeOrder orderId)
      fun ctx registered => (sound id ctx registered).2.removeOrder_ok orderId
  case getBids id => exact readSide_defined fun ctx registered => (sound id ctx registered).1.orders_ok
  case getAsks id => exact readSide_defined fun ctx registered => (sound id ctx registered).2.orders_ok

/-- A change of one client's context, where it keeps that client's orders sound. -/
theorem OrdersSound.change {f : ClientContext → ClientContext} {id c : ClientId} {ctx : ClientContext}
    (sound : list.OrdersSound)
    (found : (if id = c then (list.clients.lookup c).map f else list.clients.lookup c) = some ctx)
    (keeps : ∀ former, list.clients.lookup id = some former → former.bids.Sound → former.asks.Sound →
      (f former).bids.Sound ∧ (f former).asks.Sound) : ctx.bids.Sound ∧ ctx.asks.Sound := by
  split at found
  next own =>
    subst own
    obtain ⟨former, registered, rfl⟩ := Option.map_eq_some_iff.mp found
    obtain ⟨bids, asks⟩ := sound id former registered
    exact keeps former registered bids asks
  next => exact sound c ctx found

/-- An order that is added to a side, where it is read first, is not held there yet. -/
theorem sound_after_addOrder {side : OrderSide} (sound : side.Sound) {order : OrderPtr}
    (new : ∀ ref, order = some ref → ref.order.id ∉ side.byId) :
    (side.after (·.addOrder evaluation order)).Sound := by
  cases evaluation with
  | rightFirst => rwa [OrderSide.after_addOrder_rightFirst]
  | leftFirst =>
    cases order with
    | none => exact sound
    | some ref =>
      rw [OrderSide.after_addOrder_leftFirst]
      exact sound.withOrder (new ref rfl)

theorem OrdersSound.step {op : ClientListOp} {after : ClientList} (sound : list.OrdersSound)
    (new : AddsNewOrder list op) (moved : list.stepBy evaluation op = some after) : after.OrdersSound := by
  intro c ctx found
  rw [lookup_step moved] at found
  cases op <;> simp only [ClientContext.after] at found
  case addSession id p =>
    split at found
    next own =>
      cases registered : list.clients.lookup c with
      | none =>
        rw [registered] at found
        cases Option.some.inj found
        exact ⟨OrderSide.sound_empty, OrderSide.sound_empty⟩
      | some former =>
        rw [registered] at found
        cases Option.some.inj found
        exact sound c former registered
    next => exact sound c ctx found
  case removeSession id =>
    split at found
    next => contradiction
    next => exact sound c ctx found
  case addBid id bid =>
    refine sound.change found fun former registered bids asks => ⟨sound_after_addOrder bids ?_, asks⟩
    rintro ref rfl
    exact new former registered
  case addAsk id ask =>
    refine sound.change found fun former registered bids asks => ⟨bids, sound_after_addOrder asks ?_⟩
    rintro ref rfl
    exact new former registered
  case removeBid id orderId => exact sound.change found fun _ _ bids asks => ⟨bids.removeOrder orderId, asks⟩
  case removeAsk id orderId => exact sound.change found fun _ _ bids asks => ⟨bids, asks.removeOrder orderId⟩
  case subscribe id => exact sound.change found fun _ _ bids asks => ⟨bids, asks⟩
  all_goals exact sound c ctx found

/-- An identifier that is held already comes into the list a second time. -/
theorem not_inSync_of_held {side : OrderSide} {ref : OrderRef} (sync : side.InSync)
    (held : ref.order.id ∈ side.byId) : ¬(side.withOrder ref).InSync := by
  intro after
  have nodup := after.ids_nodup
  simp only [OrderSide.withOrder, List.map_append, List.map_cons, List.map_nil] at nodup
  have member := (sync.same_ids ref.order.id).mpr held
  exact (List.nodup_append.mp nodup).2.2 _ member _ (List.mem_singleton.mpr rfl) rfl

theorem not_ordersInSync_of_held {op : ClientListOp} {after : ClientList} (sync : list.OrdersInSync)
    (held : ¬AddsNewOrder list op) (moved : list.stepBy .leftFirst op = some after) : ¬after.OrdersInSync := by
  intro later
  cases op with
  | addBid id bid =>
    cases bid with
    | none => exact held trivial
    | some bid =>
      simp only [AddsNewOrder, not_forall, not_not] at held
      obtain ⟨ctx, registered, member⟩ := held
      have found := lookup_step moved id
      rw [ClientContext.after, if_pos rfl, registered, Option.map_some] at found
      exact not_inSync_of_held (sync id ctx registered).1 member (later id _ found).1
  | addAsk id ask =>
    cases ask with
    | none => exact held trivial
    | some ask =>
      simp only [AddsNewOrder, not_forall, not_not] at held
      obtain ⟨ctx, registered, member⟩ := held
      have found := lookup_step moved id
      rw [ClientContext.after, if_pos rfl, registered, Option.map_some] at found
      exact not_inSync_of_held (sync id ctx registered).2.1 member (later id _ found).2.1
  | _ => exact held trivial

/-- A registered client cannot be given an order whose key is read after its move. -/
theorem stepBy_addsOrder {op : ClientListOp} (adds : list.AddsOrder op) : list.stepBy .rightFirst op = none := by
  have undefined (id : ClientId) (known : list.hasClient id = true) (order : OrderPtr)
      (side : ClientContext → OrderSide) (put : ClientContext → OrderSide → ClientContext) :
      (list.updateContext id fun ctx => return put ctx (← (side ctx).addOrder .rightFirst order)).1 =
        .error .undefinedBehaviour := by
    obtain ⟨ctx, registered⟩ := Option.isSome_iff_exists.mp known
    simp [updateContext, context, registered, bind, Except.bind, OrderSide.addOrder_rightFirst]
  refine Option.not_isSome_iff_eq_none.mp fun defined => isSome_stepBy.mp defined ?_
  cases op with
  | addBid id bid => exact undefined id adds bid ClientContext.bids fun ctx bids => { ctx with bids }
  | addAsk id ask => exact undefined id adds ask ClientContext.asks fun ctx asks => { ctx with asks }
  | _ => exact adds.elim

theorem AddsOrder.onOrders {op : ClientListOp} (adds : list.AddsOrder op) : op.OnOrders := by
  cases op <;> trivial

theorem OrderCallsEnd.readsKeyFirst {ops : List ClientListOp} (calls_end : OrderCallsEnd evaluation ops) :
    Guarded (stepBy evaluation) (ReadsKeyFirst evaluation) {} ops := by
  intro before op after s split run adds
  cases evaluation with
  | leftFirst => rfl
  | rightFirst =>
    have defined := calls_end before op after s split run adds.onOrders
    rw [stepBy_addsOrder adds] at defined
    contradiction

theorem addsOrder_of_not_new {op : ClientListOp} (held : ¬AddsNewOrder list op) : list.AddsOrder op := by
  cases op with
  | addBid id order | addAsk id order =>
    cases order with
    | none => exact absurd trivial held
    | some ref =>
      simp only [AddsNewOrder, not_forall] at held
      obtain ⟨ctx, registered, _⟩ := held
      simp [AddsOrder, hasClient, registered]
  | _ => exact absurd trivial held

/-- Along any run of calls the orders are kept exactly as long as every order
is read before its pointer moves, and is new to the client it is given to. -/
theorem ordersKept_iff (evaluation : OperandOrder) (ops : List ClientListOp) (given : ∀ op ∈ ops, op.GivesOrder) :
    OrdersKept evaluation ops ↔ Guarded (stepBy evaluation)
      (fun list op => ReadsKeyFirst evaluation list op ∧ AddsNewOrder list op) {} ops := by
  constructor
  · intro kept
    have first := kept.calls_end.readsKeyFirst
    refine first.and fun before op after s split run => ?_
    by_contra held
    have adds := addsOrder_of_not_new held
    obtain rfl := first before op after s split run adds
    obtain ⟨next, moved⟩ := Option.isSome_iff_exists.mp (kept.calls_end before op after s split run adds.onOrders)
    have sync := kept.in_sync before (op :: after) s split run
    subst split
    exact not_ordersInSync_of_held sync held moved (kept.in_sync.next run moved)
  · intro guarded
    have initial : OrdersSound {} := fun c ctx found => by simp at found
    have sound : Always (stepBy evaluation) OrdersSound {} ops :=
      guarded.always (fun _ _ _ sound met moved => sound.step met.2 moved) initial
    refine ⟨fun before op after s split run => ?_, sound.mono fun _ => OrdersSound.ordersInSync⟩
    have here := sound before (op :: after) s split run
    exact here.step_defined (guarded before op after s split run).1 (given op (by simp [split]))

/-- The first order that a client is given is read through a null pointer. -/
theorem added_order_undefined :
    ¬∀ ops : List ClientListOp, (∀ op ∈ ops, op.GivesOrder) → OrdersKept .rightFirst ops := by
  intro claim
  have kept := claim [.addSession 5 (some 7), .addBid 5 (some ⟨0, ⟨1, 100, 10⟩⟩)] (by simp [ClientListOp.GivesOrder])
  have defined := kept.calls_end [.addSession 5 (some 7)] (.addBid 5 (some ⟨0, ⟨1, 100, 10⟩⟩)) [] _ rfl rfl trivial
  contradiction

/-- Removals alone, and orders given, taken back and given again where the key is read first. -/
theorem renewed_order_kept :
    OrdersKept .rightFirst [.addSession 5 (some 7), .removeBid 5 none, .getBids 5] ∧
    OrdersKept .leftFirst [.addSession 5 (some 7), .addBid 5 (some ⟨0, ⟨1, 100, 10⟩⟩), .removeBid 5 none,
      .addBid 5 (some ⟨0, ⟨1, 100, 10⟩⟩)] := by
  constructor
  · refine (ordersKept_iff _ _ (by simp [ClientListOp.GivesOrder])).mpr ?_
    refine guarded_cons ?_ rfl (guarded_cons ?_ rfl (guarded_cons ?_ rfl (guarded_nil _ _ _))) <;>
      simp [ReadsKeyFirst, AddsOrder, AddsNewOrder]
  · refine (ordersKept_iff _ _ (by simp [ClientListOp.GivesOrder])).mpr ?_
    refine guarded_cons ⟨fun _ => rfl, trivial⟩ rfl (guarded_cons ⟨fun _ => rfl, ?_⟩ rfl
      (guarded_cons ⟨fun _ => rfl, trivial⟩ rfl (guarded_cons ⟨fun _ => rfl, ?_⟩ rfl (guarded_nil _ _ _))))
    · intro ctx found
      cases Option.some.inj found
      decide
    · intro ctx found
      cases Option.some.inj found
      decide

end ClientList

end Stakan
