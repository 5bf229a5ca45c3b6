import Stakan.ClientList.Basic
import Stakan.Library.LockedObject

namespace Stakan
open LockedObject

/-- What a call of the client list returns, and the calls on sessions that a broadcast makes. -/
inductive ClientAnswer
  | nothing
  | session (session : SessionPtr)
  | count (n : Nat)
  | sessions (sessions : List SessionPtr)
  | flag (value : Bool)
  | orders (orders : List OrderPtr)
  | clients (clients : List ClientId)
  | client (client : Option ClientId)
  | sent (calls : List SessionCall)

/-- How a call ends. -/
abbrev ClientResult := Except Failure ClientAnswer

/-- The client whose registration a call checks first, under a lock of its own. -/
def ClientListOp.checks : ClientListOp → Option ClientId
  | .getSession id | .addBid id _ | .addAsk id _ | .removeBid id _ | .removeAsk id _ | .getBids id | .getAsks id
  | .isSubscribed id | .subscribe id | .unsubscribe id | .broadcastToCertain id _ => some id
  | .addSession .. | .removeSession _ | .size | .getAllSessions | .hasClient _ | .getSubscribedClients
  | .getSubscribedSessions | .broadcastToSubscribed _ | .findClientIdBySession _ => none

namespace ClientList

/-- How a call ends that nothing disturbs. -/
def reply (op : ClientListOp) (list : ClientList) : ClientResult :=
  match op with
  | .getSession id => (list.getSession id).map .session
  | .size => .ok (.count list.size)
  | .getAllSessions => .ok (.sessions list.getAllSessions)
  | .hasClient id => .ok (.flag (list.hasClient id))
  | .getBids id => (list.getBids id).map .orders
  | .getAsks id => (list.getAsks id).map .orders
  | .isSubscribed id => (list.isSubscribed id).map .flag
  | .getSubscribedClients => .ok (.clients list.getSubscribedClients)
  | .getSubscribedSessions => .ok (.sessions list.getSubscribedSessions)
  | .broadcastToSubscribed message => (list.broadcastToSubscribed message).map .sent
  | .broadcastToCertain id message => (list.broadcastToCertain id message).map .sent
  | .findClientIdBySession session => .ok (.client (list.findClientIdBySession session))
  | .addSession .. | .removeSession _ | .addBid .. | .addAsk .. | .removeBid .. | .removeAsk .. | .subscribe _
  | .unsubscribe _ => (list.callBy .rightFirst op).1.map fun _ => .nothing

/-- The list after a call. -/
def after (op : ClientListOp) (list : ClientList) : ClientList := (list.callBy .rightFirst op).2

/-- The client has a session. -/
def hasSession (id : ClientId) (list : ClientList) : Bool :=
  ((list.clients.lookup id).bind ClientContext.session).isSome

/-- The message about an order that the client does not hold. -/
def missingOrder (id : ClientId) (orderId : Option ID) (side : Option OrderSide) : List String :=
  match orderId, side with
  | some orderId, some side =>
    if side.byId.keys ≠ [] ∧ side.byId.lookup orderId = none then
      [s!"Client with id: {id} doesn't have and order with id: {orderId}\n"]
    else []
  | _, _ => []

/-- What a call prints, all of it while it has the lock. -/
def lines (op : ClientListOp) (list : ClientList) : List String :=
  match op with
  | .addSession id _ => if list.hasSession id then [s!"Client with id: {id} was recreated\n"] else []
  | .removeSession id => (if list.hasSession id then [s!"Session with id: {id} was deleted\n"] else []) ++
    [s!"Client with id: {id} was deleted\n"]
  | .removeBid id orderId => missingOrder id orderId ((list.clients.lookup id).map ClientContext.bids)
  | .removeAsk id orderId => missingOrder id orderId ((list.clients.lookup id).map ClientContext.asks)
  | _ => []

end ClientList

/-- What is left of a call once it has let go of the lock: nothing, or the
sessions that are still to be sent the message, and the calls made so far. -/
inductive ClientRest
  | finished (result : ClientResult)
  | sending (message : List UInt8) (rest : List SessionPtr) (sent : List SessionCall)

namespace ClientRest

/-- How the call ends if it goes on. -/
def outcome : ClientRest → ClientResult
  | finished result => result
  | sending message rest sent => (rest.mapM (ClientList.send message)).map fun calls => .sent (sent ++ calls)

/-- What the call has to do after it has read from or written to the list. -/
def afterLock (op : ClientListOp) (list : ClientList) : ClientRest :=
  match op with
  | .broadcastToSubscribed message => sending message list.getSubscribedSessions []
  | .broadcastToCertain id message => match list.getSession id with
    | .ok session => sending message [session] []
    | .error failure => finished (.error failure)
  | _ => finished (list.reply op)

/-- `SendMsg` through the next pointer. -/
def next : ClientRest → Option ClientRest
  | finished _ => none
  | sending _ [] sent => some (finished (.ok (.sent sent)))
  | sending _ (none :: _) _ => some (finished (.error .undefinedBehaviour))
  | sending message (some session :: rest) sent => some (sending message rest (sent ++ [.sendMsg session message]))

end ClientRest

/-- Where a call stands. The calls that check for their client take the mutex
twice: in `has_client`, and again for the work. -/
inductive ClientPoint
  | called (op : ClientListOp)
  | locked (op : ClientListOp)
  | checking (op : ClientListOp) (id : ClientId)
  | found (op : ClientListOp) (id : ClientId)
  | between (op : ClientListOp) (id : ClientId)
  | relocked (op : ClientListOp) (id : ClientId)
  | unlocking (rest : ClientRest)
  | left (rest : ClientRest)

namespace ClientPoint

def holds : ClientPoint → Hold
  | called _ | between .. | left _ => .nothing
  | locked _ | checking .. | found .. | relocked .. | unlocking _ => .exclusive

/-- The next step of a call. -/
def act (point : ClientPoint) (list : ClientList) : Option (ClientList × ClientPoint × List String) :=
  match point with
  | called op => some (list, match op.checks with
    | none => locked op
    | some id => checking op id, [])
  | locked op => some (list.after op, unlocking (.afterLock op list), list.lines op)
  | checking op id => some (list,
    if list.hasClient id then found op id else unlocking (.finished (.error (ClientList.noClient id))), [])
  | found op id => some (list, between op id, [])
  | between op id => some (list, relocked op id, [])
  | relocked op id =>
    -- `clients_.at(id)`
    if list.hasClient id then some (list.after op, unlocking (.afterLock op list), list.lines op)
    else some (list, unlocking (.finished (.error .outOfRange)), [])
  | unlocking rest => some (list, left rest, [])
  | left rest => rest.next.map fun rest => (list, left rest, [])

end ClientPoint

/-- Which exception says that the client is not there depends on which lookup misses it. -/
def ClientResult.blur : ClientResult → ClientResult
  | .error (.runtimeError _) => .error .outOfRange
  | result => result

/-- The code of the calls of the client list. A call that throws is seen to throw, not what. -/
def clientCode : Code ClientList ClientListOp ClientPoint ClientResult String where
  start := .called
  holds := ClientPoint.holds
  act := ClientPoint.act
  answer
    | .left (.finished result) => some result.blur
    | _ => none

/-- A call that takes effect in one piece. -/
def ClientList.perform (op : ClientListOp) (list : ClientList) : Option (ClientList × ClientResult × List String) :=
  some (list.after op, (list.reply op).blur, list.lines op)

end Stakan
