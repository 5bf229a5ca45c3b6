import Stakan.ClientList.Sessions

namespace Stakan

/-- A side after a change that may fail, which leaves it as it was. -/
def OrderSide.after (change : OrderSide → Except Failure OrderSide) (side : OrderSide) : OrderSide :=
  match change side with
  | .ok changed => changed
  | .error _ => side

/-- What a call does to the context of one client: each client's context goes
its own way, whatever is called for the others. -/
def ClientContext.after (evaluation : OperandOrder) (c : ClientId) (ctx : Option ClientContext) :
    ClientListOp → Option ClientContext
  | .addSession id p => if id = c then some { ctx.getD {} with session := p } else ctx
  | .removeSession id => if id = c then none else ctx
  | .addBid id bid =>
    if id = c then ctx.map fun ctx => { ctx with bids := ctx.bids.after (·.addOrder evaluation bid) } else ctx
  | .addAsk id ask =>
    if id = c then ctx.map fun ctx => { ctx with asks := ctx.asks.after (·.addOrder evaluation ask) } else ctx
  | .removeBid id orderId =>
    if id = c then ctx.map fun ctx => { ctx with bids := ctx.bids.after (·.removeOrder orderId) } else ctx
  | .removeAsk id orderId =>
    if id = c then ctx.map fun ctx => { ctx with asks := ctx.asks.after (·.removeOrder orderId) } else ctx
  | .subscribe id => if id = c then ctx.map fun ctx => { ctx with subscribed := true } else ctx
  | _ => ctx

namespace ClientList

variable {evaluation : OperandOrder} {list : ClientList}

theorem lookup_updateContext {change : ClientContext → Except Failure ClientContext}
    {changed : ClientContext → ClientContext} (id c : ClientId)
    (kept : ∀ ctx failure, change ctx = .error failure → changed ctx = ctx)
    (done : ∀ ctx ctx', change ctx = .ok ctx' → changed ctx = ctx') :
    (list.updateContext id change).2.clients.lookup c =
      if id = c then (list.clients.lookup c).map changed else list.clients.lookup c := by
  split
  next own =>
    subst own
    unfold updateContext context
    cases found : list.clients.lookup id with
    | none => exact found
    | some ctx =>
      cases result : change ctx with
      | error failure => simp [bind, Except.bind, result, found, kept ctx failure result]
      | ok ctx' => simp [bind, Except.bind, result, done ctx ctx' result]
  next other => exact lookup_updateContext_of_ne (Ne.symm other) list change

/-- A change of one side of a client's orders, which is put back where it was taken from. -/
theorem lookup_updateSide (side : ClientContext → OrderSide) (put : ClientContext → OrderSide → ClientContext)
    (same : ∀ ctx, put ctx (side ctx) = ctx) (change : OrderSide → Except Failure OrderSide) (id c : ClientId) :
    (list.updateContext id fun ctx => return put ctx (← change (side ctx))).2.clients.lookup c =
      if id = c then (list.clients.lookup c).map fun ctx => put ctx ((side ctx).after change)
      else list.clients.lookup c := by
  refine lookup_updateContext id c (fun ctx failure threw => ?_) fun ctx ctx' changed => ?_
  · cases result : change (side ctx) with
    | error => rw [OrderSide.after, result, same]
    | ok changed =>
      rw [result] at threw
      contradiction
  · cases result : change (side ctx) with
    | error =>
      rw [result] at changed
      contradiction
    | ok side' =>
      rw [result] at changed
      rw [OrderSide.after, result]
      exact Except.ok.inj changed

theorem lookup_step {op : ClientListOp} {after : ClientList} (moved : list.stepBy evaluation op = some after)
    (c : ClientId) : after.clients.lookup c = ClientContext.after evaluation c (list.clients.lookup c) op := by
  have result := step_eq_some moved
  cases op with
  | addSession id p =>
    rw [result]
    simp only [ClientContext.after]
    split
    next own => rw [← own]; exact lookup_addSession_self list id p
    next other => exact lookup_addSession_of_ne list (Ne.symm other) p
  | removeSession id =>
    rw [result]
    simp only [ClientContext.after]
    split
    next own => rw [← own]; exact AList.lookup_erase id list.clients
    next other => exact AList.lookup_erase_ne (Ne.symm other)
  | addBid id bid =>
    rw [result]
    exact lookup_updateSide ClientContext.bids (fun ctx bids => { ctx with bids }) (fun _ => rfl)
      (·.addOrder evaluation bid) id c
  | addAsk id ask =>
    rw [result]
    exact lookup_updateSide ClientContext.asks (fun ctx asks => { ctx with asks }) (fun _ => rfl)
      (·.addOrder evaluation ask) id c
  | removeBid id orderId =>
    rw [result]
    exact lookup_updateSide ClientContext.bids (fun ctx bids => { ctx with bids }) (fun _ => rfl)
      (·.removeOrder orderId) id c
  | removeAsk id orderId =>
    rw [result]
    exact lookup_updateSide ClientContext.asks (fun ctx asks => { ctx with asks }) (fun _ => rfl)
      (·.removeOrder orderId) id c
  | subscribe id =>
    rw [result]
    exact lookup_updateContext id c (fun ctx failure threw => by cases threw) fun ctx ctx' changed => by
      cases changed; rfl
  | unsubscribe id =>
    rw [result]
    simp only [callBy, unsubscribe]
    split <;> rfl
  | _ => rw [result]; rfl

end ClientList

end Stakan
