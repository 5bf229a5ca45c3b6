import Mathlib.Data.List.AList
import Stakan.Interface
import Stakan.Library.LabelledRun

namespace Stakan

abbrev ClientId := UInt64

/-- A shared pointer is the address of its object, or null. -/
abbrev SessionAddr := Nat
abbrev SessionPtr := Option SessionAddr

/-- An order object at its address. -/
structure OrderRef where
  addr : Nat
  order : Order
  deriving DecidableEq

abbrev OrderPtr := Option OrderRef

/-- How a call can fail: the exceptions of the source, and the uses that
C++ leaves undefined (a null pointer followed, a stale iterator, the back of
an empty list). -/
inductive Failure
  | runtimeError (what : String)
  | outOfRange
  | undefinedBehaviour
  deriving DecidableEq

/-- What the server makes a session do. -/
inductive SessionCall
  | sendMsg (session : SessionAddr) (message : List UInt8)
  | stop (session : SessionAddr)
  deriving DecidableEq

/-- A node of `std::list<common::ID>`: its address, to which iterators
refer, and its element. -/
structure ListNode where
  node : Nat
  id : ID
  deriving DecidableEq

structure OrderEntry where
  order : OrderPtr
  it : Nat
  deriving DecidableEq

/-- One side of a client's orders: the map by identifier and the list in
order of arrival. `nextNode` is the address of the next list node. -/
structure OrderSide where
  byId : AList fun _ : ID => OrderEntry := ∅
  inOrder : List ListNode := []
  nextNode : Nat := 0

structure ClientContext where
  session : SessionPtr := none
  bids : OrderSide := {}
  asks : OrderSide := {}
  subscribed : Bool := false

/-- The two hash maps. Their iteration order is unspecified; here it is that
of the association lists. -/
structure ClientList where
  clients : AList fun _ : ClientId => ClientContext := ∅
  sessionToClient : AList fun _ : SessionPtr => ClientId := ∅

/-- Which operand of an assignment is evaluated first. Since C++17 it is the
right one; before, the language left it open. -/
inductive OperandOrder
  | rightFirst
  | leftFirst
  deriving DecidableEq

/-- `order->id`. -/
def OrderPtr.id : OrderPtr → Except Failure ID
  | some ref => .ok ref.order.id
  | none => .error .undefinedBehaviour

namespace OrderSide

/-- The entry of `by_id[order->id] = {std::move(order), last}` is built as the
right operand, which leaves the pointer null. -/
def addOrder (evaluation : OperandOrder) (side : OrderSide) (order : OrderPtr) : Except Failure OrderSide := do
  let id ← order.id
  let inOrder := side.inOrder ++ [⟨side.nextNode, id⟩]
  let moved : OrderPtr := none
  let key ← match evaluation with
    | .rightFirst => moved.id
    | .leftFirst => order.id
  return { byId := side.byId.insert key ⟨order, side.nextNode⟩, inOrder, nextNode := side.nextNode + 1 }

/-- The order with the given identifier goes, or the last one of the list. -/
def removeOrder (side : OrderSide) (orderId : Option ID) : Except Failure OrderSide :=
  if side.byId.keys = [] then .ok side
  else match orderId with
    | some id => match side.byId.lookup id with
      | none => .ok side
      | some entry =>
        if side.inOrder.any (·.node == entry.it) then
          .ok { side with byId := side.byId.erase id, inOrder := side.inOrder.eraseP (·.node == entry.it) }
        else .error .undefinedBehaviour
    | none => match side.inOrder.getLast? with
      | some last => .ok { side with byId := side.byId.erase last.id, inOrder := side.inOrder.dropLast }
      | none => .error .undefinedBehaviour

/-- The orders of the list, each looked up in the map with `at`. -/
def orders (side : OrderSide) : Except Failure (List OrderPtr) :=
  side.inOrder.mapM fun entry => match side.byId.lookup entry.id with
    | some found => .ok found.order
    | none => .error .outOfRange

end OrderSide

namespace ClientList

def noClient (id : ClientId) : Failure := .runtimeError s!"There is no client with id: {id}"

/-- The reverse map without the session the client has had so far, if it has one. -/
def forgetSession (id : ClientId) (list : ClientList) : AList fun _ : SessionPtr => ClientId :=
  match list.clients.lookup id with
  | some ctx => if ctx.session.isSome then list.sessionToClient.erase ctx.session else list.sessionToClient
  | none => list.sessionToClient

def addSession (id : ClientId) (session : SessionPtr) (list : ClientList) : ClientList :=
  let sessionToClient := list.forgetSession id
  { clients := list.clients.insert id { (list.clients.lookup id).getD {} with session := session }
    sessionToClient := if session.isSome then sessionToClient.insert session id else sessionToClient }

def removeSession (id : ClientId) (list : ClientList) : ClientList :=
  { clients := list.clients.erase id, sessionToClient := list.forgetSession id }

/-- The registered client's context; every call that needs one throws without it. -/
def context (id : ClientId) (list : ClientList) : Except Failure ClientContext :=
  match list.clients.lookup id with
  | some ctx => .ok ctx
  | none => .error (noClient id)

def getSession (id : ClientId) (list : ClientList) : Except Failure SessionPtr :=
  (list.context id).map ClientContext.session

def size (list : ClientList) : Nat := list.clients.keys.length

def getAllSessions (list : ClientList) : List SessionPtr :=
  (list.clients.entries.map fun entry => entry.2.session).filter Option.isSome

def hasClient (id : ClientId) (list : ClientList) : Bool := (list.clients.lookup id).isSome

/-- A change of one client's context through a reference into the map. -/
def updateContext (id : ClientId) (change : ClientContext → Except Failure ClientContext) (list : ClientList) :
    Except Failure Unit × ClientList :=
  match list.context id >>= change with
  | .ok ctx => (.ok (), { list with clients := list.clients.insert id ctx })
  | .error failure => (.error failure, list)

def addBid (evaluation : OperandOrder) (id : ClientId) (bid : OrderPtr) (list : ClientList) :
    Except Failure Unit × ClientList :=
  list.updateContext id fun ctx => return { ctx with bids := ← ctx.bids.addOrder evaluation bid }

def addAsk (evaluation : OperandOrder) (id : ClientId) (ask : OrderPtr) (list : ClientList) :
    Except Failure Unit × ClientList :=
  list.updateContext id fun ctx => return { ctx with asks := ← ctx.asks.addOrder evaluation ask }

def removeBid (id : ClientId) (orderId : Option ID) (list : ClientList) : Except Failure Unit × ClientList :=
  list.updateContext id fun ctx => return { ctx with bids := ← ctx.bids.removeOrder orderId }

def removeAsk (id : ClientId) (orderId : Option ID) (list : ClientList) : Except Failure Unit × ClientList :=
  list.updateContext id fun ctx => return { ctx with asks := ← ctx.asks.removeOrder orderId }

def getBids (id : ClientId) (list : ClientList) : Except Failure (List OrderPtr) :=
  list.context id >>= fun ctx => ctx.bids.orders

def getAsks (id : ClientId) (list : ClientList) : Except Failure (List OrderPtr) :=
  list.context id >>= fun ctx => ctx.asks.orders

def isSubscribed (id : ClientId) (list : ClientList) : Except Failure Bool :=
  (list.context id).map ClientContext.subscribed

def subscribe (id : ClientId) (list : ClientList) : Except Failure Unit × ClientList :=
  list.updateContext id fun ctx => .ok { ctx with subscribed := true }

/-- The flag is cleared in a copy of the context; the map keeps the original. -/
def unsubscribe (id : ClientId) (list : ClientList) : Except Failure Unit × ClientList :=
  match list.context id with
  | .ok it =>
    let _it := { it with subscribed := false }
    (.ok (), list)
  | .error failure => (.error failure, list)

def getSubscribedClients (list : ClientList) : List ClientId :=
  (list.clients.entries.filter fun entry => entry.2.subscribed).map Sigma.fst

def getSubscribedSessions (list : ClientList) : List SessionPtr :=
  (list.clients.entries.filter fun entry => entry.2.subscribed).map fun entry => entry.2.session

/-- `SendMsg` through a session pointer. -/
def send (message : List UInt8) : SessionPtr → Except Failure SessionCall
  | some session => .ok (.sendMsg session message)
  | none => .error .undefinedBehaviour

def broadcastToSubscribed (message : List UInt8) (list : ClientList) : Except Failure (List SessionCall) :=
  list.getSubscribedSessions.mapM (send message)

def broadcastToCertain (id : ClientId) (message : List UInt8) (list : ClientList) :
    Except Failure (List SessionCall) := do
  let s ← list.getSession id
  return [← send message s]

def findClientIdBySession (session : SessionPtr) (list : ClientList) : Option ClientId :=
  list.sessionToClient.lookup session

end ClientList

/-- The operations of the `IClientList` interface. -/
inductive ClientListOp
  | addSession (id : ClientId) (session : SessionPtr)
  | removeSession (id : ClientId)
  | getSession (id : ClientId)
  | size
  | getAllSessions
  | hasClient (id : ClientId)
  | addBid (id : ClientId) (bid : OrderPtr)
  | addAsk (id : ClientId) (ask : OrderPtr)
  | removeBid (id : ClientId) (orderId : Option ID)
  | removeAsk (id : ClientId) (orderId : Option ID)
  | getBids (id : ClientId)
  | getAsks (id : ClientId)
  | isSubscribed (id : ClientId)
  | subscribe (id : ClientId)
  | unsubscribe (id : ClientId)
  | getSubscribedClients
  | getSubscribedSessions
  | broadcastToSubscribed (message : List UInt8)
  | broadcastToCertain (id : ClientId) (message : List UInt8)
  | findClientIdBySession (session : SessionPtr)

namespace ClientList

/-- How a call ends, and the list after it. -/
def callBy (evaluation : OperandOrder) (list : ClientList) : ClientListOp → Except Failure Unit × ClientList
  | .addSession id session => (.ok (), list.addSession id session)
  | .removeSession id => (.ok (), list.removeSession id)
  | .addBid id bid => list.addBid evaluation id bid
  | .addAsk id ask => list.addAsk evaluation id ask
  | .removeBid id orderId => list.removeBid id orderId
  | .removeAsk id orderId => list.removeAsk id orderId
  | .subscribe id => list.subscribe id
  | .unsubscribe id => list.unsubscribe id
  | .getSession id => ((list.getSession id).map fun _ => (), list)
  | .getBids id => ((list.getBids id).map fun _ => (), list)
  | .getAsks id => ((list.getAsks id).map fun _ => (), list)
  | .isSubscribed id => ((list.isSubscribed id).map fun _ => (), list)
  | .broadcastToSubscribed message => ((list.broadcastToSubscribed message).map fun _ => (), list)
  | .broadcastToCertain id message => ((list.broadcastToCertain id message).map fun _ => (), list)
  | .size | .getAllSessions | .hasClient _ | .getSubscribedClients | .getSubscribedSessions
  | .findClientIdBySession _ => (.ok (), list)

/-- The list after a call that returns or throws; undefined behaviour has no
state after it. -/
def stepBy (evaluation : OperandOrder) (list : ClientList) (op : ClientListOp) : Option ClientList :=
  match list.callBy evaluation op with
  | (.error .undefinedBehaviour, _) => none
  | (_, after) => some after

/-- A call of the program, which is C++20. -/
abbrev step : ClientList → ClientListOp → Option ClientList := stepBy .rightFirst

end ClientList

end Stakan
