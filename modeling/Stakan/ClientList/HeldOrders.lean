import Mathlib.Data.List.Induction
import Stakan.ClientList.Orders

namespace Stakan
open LabelledRun

/-- The orders that a client has been given and has not had removed, in the order they came. -/
structure HeldOrders where
  bids : List OrderRef := []
  asks : List OrderRef := []

namespace HeldOrders

/-- What a removal leaves: all but the order with the identifier, or all but the newest one. -/
def remaining (orders : List OrderRef) : Option ID → List OrderRef
  | some id => orders.filter (·.order.id != id)
  | none => orders.dropLast

/-- Removing an order that is not held changes nothing. -/
theorem remaining_of_absent {orders : List OrderRef} {id : ID} (absent : ∀ ref ∈ orders, ref.order.id ≠ id) :
    remaining orders (some id) = orders := by
  refine List.filter_eq_self.mpr fun ref member => ?_
  simpa using absent ref member

/-- What client `c` holds after a call; an unregistered client holds nothing at all. -/
def after (c : ClientId) (held : Option HeldOrders) : ClientListOp → Option HeldOrders
  | .addSession id _ => if id = c then some (held.getD {}) else held
  | .removeSession id => if id = c then none else held
  | .addBid id (some bid) => if id = c then held.map fun held => { held with bids := held.bids ++ [bid] } else held
  | .addAsk id (some ask) => if id = c then held.map fun held => { held with asks := held.asks ++ [ask] } else held
  | .removeBid id orderId =>
    if id = c then held.map fun held => { held with bids := remaining held.bids orderId } else held
  | .removeAsk id orderId =>
    if id = c then held.map fun held => { held with asks := remaining held.asks orderId } else held
  | _ => held

/-- What client `c` holds after these calls on an empty list. -/
def of (c : ClientId) (ops : List ClientListOp) : Option HeldOrders := ops.foldl (after c) none

theorem of_snoc (c : ClientId) (ops : List ClientListOp) (op : ClientListOp) :
    of c (ops ++ [op]) = after c (of c ops) op := by
  rw [of, List.foldl_append]
  rfl

/-- An order that is added has an identifier that its client does not hold on that side. -/
def IsNew (holdings : ClientId → Option HeldOrders) : ClientListOp → Prop
  | .addBid c (some bid) => ∀ held, holdings c = some held → ∀ ref ∈ held.bids, ref.order.id ≠ bid.order.id
  | .addAsk c (some ask) => ∀ held, holdings c = some held → ∀ ref ∈ held.asks, ref.order.id ≠ ask.order.id
  | _ => True

/-- Every order that these calls add is new to its client when it is added. -/
def AddsNew (ops : List ClientListOp) : Prop :=
  ∀ before op after, ops = before ++ op :: after → IsNew (fun c => of c before) op

theorem addsNew_nil : AddsNew [] := by
  intro before op after split
  simp at split

theorem isNew_addBid {holdings : ClientId → Option HeldOrders} {c : ClientId} {bid : OrderRef} {asks : List OrderRef}
    (none_held : holdings c = some ⟨[], asks⟩) : IsNew holdings (.addBid c (some bid)) := by
  intro held holding ref member
  cases none_held.symm.trans holding
  simp at member

theorem addsNew_snoc {ops : List ClientListOp} {op : ClientListOp} (new : AddsNew ops)
    (fresh : IsNew (fun c => of c ops) op) : AddsNew (ops ++ [op]) := by
  intro before next after split
  cases after using List.reverseRecOn with
  | nil =>
    obtain ⟨rfl, same⟩ := List.append_inj' split rfl
    obtain rfl := (List.cons.inj same).1
    exact fresh
  | append_singleton after last =>
    rw [← List.cons_append, ← List.append_assoc] at split
    exact new before next after (List.append_inj' split rfl).1

end HeldOrders

namespace OrderSide

/-- A side that stands for a list of orders. -/
structure Holds (side : OrderSide) (held : List OrderRef) : Prop extends Sound side where
  in_order : side.inOrder.map ListNode.id = held.map fun ref => ref.order.id
  entries : ∀ ref ∈ held, ∃ it, side.byId.lookup ref.order.id = some ⟨some ref, it⟩

variable {side : OrderSide} {held : List OrderRef}

theorem holds_empty : Holds {} [] where
  toSound := sound_empty
  in_order := rfl
  entries ref member := by simp at member

theorem Holds.orders (holds : side.Holds held) : side.orders = .ok (held.map some) := by
  have in_order := holds.in_order
  have entries := holds.entries
  unfold OrderSide.orders
  clear holds
  generalize side.inOrder = nodes at in_order
  induction held generalizing nodes with
  | nil =>
    obtain rfl := List.map_eq_nil_iff.mp in_order
    rfl
  | cons ref held ih =>
    obtain ⟨node, rest, rfl, same, later⟩ := List.map_eq_cons_iff.mp in_order
    obtain ⟨it, found⟩ := entries ref List.mem_cons_self
    have read := ih (fun other member => entries other (List.mem_cons_of_mem _ member)) rest later
    rw [List.mapM_cons, same, found, read]
    rfl

theorem Holds.mem_byId (holds : side.Holds held) {id : ID} :
    id ∈ side.byId ↔ ∃ ref ∈ held, ref.order.id = id := by
  rw [← holds.same_ids, holds.in_order, List.mem_map]

theorem Holds.withOrder (holds : side.Holds held) {ref : OrderRef}
    (new : ∀ other ∈ held, other.order.id ≠ ref.order.id) : (side.withOrder ref).Holds (held ++ [ref]) where
  toSound := holds.toSound.withOrder fun member => by
    obtain ⟨other, inside, same⟩ := holds.mem_byId.mp member
    exact new other inside same
  in_order := by simp [OrderSide.withOrder, holds.in_order]
  entries other member := by
    rcases List.mem_append.mp member with old | added
    · rw [OrderSide.withOrder, AList.lookup_insert_ne (new other old)]
      exact holds.entries other old
    · rw [List.mem_singleton.mp added]
      exact ⟨side.nextNode, AList.lookup_insert _⟩

/-- Without one node, the list shows the other identifiers in the same order. -/
theorem Sound.ids_eraseP (sound : side.Sound) {id : ID} {entry : OrderEntry}
    (found : side.byId.lookup id = some entry) :
    (side.inOrder.eraseP (MultiIndex.atKey ListNode.node entry.it)).map ListNode.id =
      (side.inOrder.map ListNode.id).filter (· != id) := by
  have own := sound.own_node id entry found
  have apart : ∀ other ∈ side.inOrder, other.node = entry.it ↔ other.id = id := by
    intro other member
    constructor
    · intro same
      rw [MultiIndex.eq_of_key_eq sound.nodes_nodup member own same]
    · intro same
      rw [MultiIndex.eq_of_key_eq sound.ids_nodup member own same]
  rw [MultiIndex.eraseP_atKey sound.nodes_nodup, List.filter_map]
  refine congrArg _ (List.filter_congr fun other member => ?_)
  simp only [MultiIndex.atKey, Function.comp_apply, bne, Bool.not_inj_iff, beq_eq_beq, apart other member]

theorem Holds.removeOrder (holds : side.Holds held) (orderId : Option ID) :
    (side.after (·.removeOrder orderId)).Holds (HeldOrders.remaining held orderId) := by
  have sound := holds.toSound.removeOrder orderId
  rcases holds.removeOrder_cases orderId with ⟨nothing, same⟩ | ⟨id, entry, rfl, found, removed⟩ |
    ⟨last, rfl, at_end, removed⟩
  · have kept : HeldOrders.remaining held orderId = held := by
      cases orderId with
      | some id =>
        refine HeldOrders.remaining_of_absent fun ref member same => ?_
        exact nothing (holds.mem_byId.mpr ⟨ref, member, same⟩)
      | none =>
        have empty := holds.in_order
        rw [show side.inOrder = [] from nothing] at empty
        rw [List.map_eq_nil_iff.mp empty.symm]
        rfl
    rw [kept, OrderSide.after, same]
    exact holds
  · rw [OrderSide.after, removed] at sound ⊢
    refine ⟨sound, ?_, fun ref member => ?_⟩
    · rw [holds.ids_eraseP found, holds.in_order, HeldOrders.remaining, List.filter_map]
      rfl
    · obtain ⟨inside, other⟩ := List.mem_filter.mp member
      rw [AList.lookup_erase_ne (by simpa using other)]
      exact holds.entries ref inside
  · rw [OrderSide.after, removed] at sound ⊢
    refine ⟨sound, ?_, fun ref member => ?_⟩
    · rw [HeldOrders.remaining, List.map_dropLast, holds.in_order, List.map_dropLast]
    · have inside := List.dropLast_subset _ member
      have listed : ref.order.id ∈ (side.inOrder.dropLast).map ListNode.id := by
        rw [List.map_dropLast, holds.in_order, ← List.map_dropLast]
        exact List.mem_map_of_mem member
      have left := AList.mem_erase.mp ((sound.same_ids _).mp listed)
      rw [AList.lookup_erase_ne left.1]
      exact holds.entries ref inside

end OrderSide

/-- A context that stands for what its client holds. -/
def ClientContext.Holds (ctx : ClientContext) (held : HeldOrders) : Prop :=
  ctx.bids.Holds held.bids ∧ ctx.asks.Holds held.asks

namespace ClientList

/-- Calls on orders end, and what can be read is what the client holds. -/
structure OrdersServed (evaluation : OperandOrder) (ops : List ClientListOp) : Prop where
  calls_end : OrderCallsEnd evaluation ops
  reads : ∀ before after list, ops = before ++ after → exec (stepBy evaluation) {} before = some list →
    ∀ c held, HeldOrders.of c before = some held →
      list.getBids c = .ok (held.bids.map some) ∧ list.getAsks c = .ok (held.asks.map some)

variable {evaluation : OperandOrder} {list : ClientList}

theorem holds_map {ctx : Option ClientContext} {held : Option HeldOrders} (change : ClientContext → ClientContext)
    (change' : HeldOrders → HeldOrders) (holds : Option.Rel ClientContext.Holds ctx held)
    (keeps : ∀ former before, ctx = some former → held = some before → former.Holds before →
      (change former).Holds (change' before)) :
    Option.Rel ClientContext.Holds (ctx.map change) (held.map change') := by
  cases holds with
  | none => exact .none
  | some both => exact .some (keeps _ _ rfl rfl both)

/-- A call does to a client's context what it does to the orders that the client holds. -/
theorem holds_after {c : ClientId} {ctx : Option ClientContext} {held : Option HeldOrders} {op : ClientListOp}
    {holdings : ClientId → Option HeldOrders} (holds : Option.Rel ClientContext.Holds ctx held)
    (registered : list.clients.lookup c = ctx) (holding : holdings c = held)
    (first : ReadsKeyFirst evaluation list op) (given : op.GivesOrder) (new : HeldOrders.IsNew holdings op) :
    Option.Rel ClientContext.Holds (ClientContext.after evaluation c ctx op) (HeldOrders.after c held op) := by
  cases op with
  | addSession id p =>
    simp only [ClientContext.after, HeldOrders.after]
    split
    next =>
      cases holds with
      | none => exact .some ⟨OrderSide.holds_empty, OrderSide.holds_empty⟩
      | some both => exact .some both
    next => exact holds
  | removeSession id =>
    simp only [ClientContext.after, HeldOrders.after]
    split
    next => exact .none
    next => exact holds
  | addBid id bid =>
    obtain ⟨ref, rfl⟩ := Option.isSome_iff_exists.mp given
    simp only [ClientContext.after, HeldOrders.after]
    split
    next own =>
      subst own
      refine holds_map _ _ holds fun former before known held both => ⟨?_, both.2⟩
      obtain rfl := first (by rw [AddsOrder, hasClient, registered, known]; rfl)
      exact both.1.withOrder (new before (holding.trans held))
    next => exact holds
  | addAsk id ask =>
    obtain ⟨ref, rfl⟩ := Option.isSome_iff_exists.mp given
    simp only [ClientContext.after, HeldOrders.after]
    split
    next own =>
      subst own
      refine holds_map _ _ holds fun former before known held both => ⟨both.1, ?_⟩
      obtain rfl := first (by rw [AddsOrder, hasClient, registered, known]; rfl)
      exact both.2.withOrder (new before (holding.trans held))
    next => exact holds
  | removeBid id orderId =>
    simp only [ClientContext.after, HeldOrders.after]
    split
    next => exact holds_map _ _ holds fun _ _ _ _ both => ⟨both.1.removeOrder orderId, both.2⟩
    next => exact holds
  | removeAsk id orderId =>
    simp only [ClientContext.after, HeldOrders.after]
    split
    next => exact holds_map _ _ holds fun _ _ _ _ both => ⟨both.1, both.2.removeOrder orderId⟩
    next => exact holds
  | subscribe client =>
    simp only [ClientContext.after, HeldOrders.after]
    split
    next =>
      have same := holds_map (fun ctx => { ctx with subscribed := true }) id holds fun _ _ _ _ both => both
      rwa [Option.map_id_fun, id] at same
    next => exact holds
  | _ => exact holds

/-- After any run of calls each context stands for what its client holds. -/
theorem holds_of_run {ops : List ClientListOp} (run : exec (stepBy evaluation) {} ops = some list)
    (first : Guarded (stepBy evaluation) (ReadsKeyFirst evaluation) {} ops) (given : ∀ op ∈ ops, op.GivesOrder)
    (new : HeldOrders.AddsNew ops) (c : ClientId) :
    Option.Rel ClientContext.Holds (list.clients.lookup c) (HeldOrders.of c ops) := by
  induction ops using List.reverseRecOn generalizing list with
  | nil =>
    obtain rfl := Option.some.inj run
    exact .none
  | append_singleton ops op ih =>
    obtain ⟨former, start, moved⟩ := exec_snoc_split run
    have holds := ih start first.front (fun other member => given other (List.mem_append_left _ member))
      fun before next after split => new before next (after ++ [op]) (by rw [split]; simp)
    rw [lookup_step moved, HeldOrders.of_snoc]
    exact holds_after holds rfl rfl (first ops op [] former rfl start) (given op (by simp)) (new ops op [] rfl)

/-- Along any run of calls that adds only new orders, each client's orders are
served as it holds them, exactly as long as every order is read before its pointer moves. -/
theorem ordersServed_iff (evaluation : OperandOrder) (ops : List ClientListOp)
    (given : ∀ op ∈ ops, op.GivesOrder) (new : HeldOrders.AddsNew ops) :
    OrdersServed evaluation ops ↔ Guarded (stepBy evaluation) (ReadsKeyFirst evaluation) {} ops := by
  constructor
  · intro served
    exact served.calls_end.readsKeyFirst
  · intro first
    have front {before after : List ClientListOp} (split : ops = before ++ after) {list : ClientList}
        (run : exec (stepBy evaluation) {} before = some list) (c : ClientId) :
        Option.Rel ClientContext.Holds (list.clients.lookup c) (HeldOrders.of c before) := by
      subst split
      exact holds_of_run run first.front (fun op member => given op (List.mem_append_left _ member))
        (fun former op rest cut => new former op (rest ++ after) (by rw [cut]; simp)) c
    constructor
    case calls_end =>
      intro before op after list split run
      refine OrdersSound.step_defined ?_ (first before op after list split run) (given op (by simp [split]))
      intro c ctx registered
      have holds := front split run c
      generalize HeldOrders.of c before = held at holds
      rw [registered] at holds
      cases holds with
      | some both => exact ⟨both.1.toSound, both.2.toSound⟩
    case reads =>
      intro before after list split run c held holding
      have holds := front split run c
      rw [holding] at holds
      generalize known : list.clients.lookup c = ctx at holds
      cases holds with
      | @some ctx _ both =>
        have found : list.context c = .ok ctx := by rw [context, known]
        rw [getBids, getAsks, found]
        exact ⟨both.1.orders, both.2.orders⟩

/-- A registered client's first order cannot be added. -/
theorem first_order_not_served : ¬∀ ops : List ClientListOp, (∀ op ∈ ops, op.GivesOrder) → HeldOrders.AddsNew ops →
    OrdersServed .rightFirst ops := by
  intro claim
  let bid : ClientListOp := .addBid 5 (some ⟨0, ⟨1, 100, 10⟩⟩)
  have new : HeldOrders.AddsNew ([] ++ [.addSession 5 (some 7)] ++ [bid]) :=
    HeldOrders.addsNew_snoc (HeldOrders.addsNew_snoc HeldOrders.addsNew_nil trivial) (HeldOrders.isNew_addBid rfl)
  have served := claim _ (by simp [bid, ClientListOp.GivesOrder]) new
  have defined := served.calls_end [.addSession 5 (some 7)] bid [] _ rfl rfl trivial
  contradiction

/-- Removals alone are served, and so is an identifier used again where the key is read first. -/
theorem renewed_order_served : OrdersServed .rightFirst [.addSession 5 (some 7), .removeBid 5 none] ∧
    OrdersServed .leftFirst [.addSession 5 (some 7), .addBid 5 (some ⟨0, ⟨1, 100, 10⟩⟩), .removeBid 5 (some 1),
      .addBid 5 (some ⟨0, ⟨1, 100, 10⟩⟩)] := by
  let bid : ClientListOp := .addBid 5 (some ⟨0, ⟨1, 100, 10⟩⟩)
  have registered : HeldOrders.AddsNew ([] ++ [.addSession 5 (some 7)]) :=
    HeldOrders.addsNew_snoc HeldOrders.addsNew_nil trivial
  have removed : HeldOrders.AddsNew ([] ++ [.addSession 5 (some 7)] ++ [.removeBid 5 none]) :=
    HeldOrders.addsNew_snoc registered trivial
  have added : HeldOrders.AddsNew ([] ++ [.addSession 5 (some 7)] ++ [bid]) :=
    HeldOrders.addsNew_snoc registered (HeldOrders.isNew_addBid rfl)
  have taken : HeldOrders.AddsNew ([] ++ [.addSession 5 (some 7)] ++ [bid] ++ [.removeBid 5 (some 1)]) :=
    HeldOrders.addsNew_snoc added trivial
  constructor
  · refine (ordersServed_iff _ _ (by simp [ClientListOp.GivesOrder]) removed).mpr ?_
    exact guarded_cons (fun adds => adds.elim) rfl
      (guarded_cons (fun adds => adds.elim) rfl (guarded_nil _ _ _))
  · refine (ordersServed_iff _ _ (by simp [bid, ClientListOp.GivesOrder])
      (HeldOrders.addsNew_snoc taken (HeldOrders.isNew_addBid rfl))).mpr ?_
    intro _ _ _ _ _ _ _
    rfl

end ClientList

end Stakan
