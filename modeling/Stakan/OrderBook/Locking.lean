import Stakan.Library.LockedObject
import Stakan.OrderBook.Side

namespace Stakan
open LockedObject
open OrderedIndex (equalRange)

/-- The calls that take the lock of one side. -/
inductive SideCall
  | change (op : SideOp)
  | best
  | pricesInfo (price : Price)
  deriving DecidableEq

/-- What a call returns. -/
inductive SideAnswer
  | nothing
  | order (o : Order)
  | info (info : PricesInfo)
  deriving DecidableEq

/-- How a side is named in the log, and the warnings its queries give when nothing rests. -/
structure SideTexts extends SideNames where
  emptyBest : String
  emptyPrices : String

def bidTexts : SideTexts := ⟨bidNames, "BestBid: bids are empty", "Not bids for this price"⟩
def askTexts : SideTexts := ⟨askNames, "BestAsk: asks are empty", "Not asks for this price"⟩

/-- A call that takes effect in one piece. -/
def BookSide.perform {comparator : Order → Order → Bool} (texts : SideTexts) (call : SideCall)
    (side : BookSide comparator) : Option (BookSide comparator × SideAnswer × List LogEntry) :=
  match call with
  | .change op => some ((side.call texts.toSideNames op).value, .nothing, (side.call texts.toSideNames op).entries)
  | .best => some (side, .order (side.best texts.emptyBest).value, (side.best texts.emptyBest).entries)
  | .pricesInfo price =>
    let info := getContainerPrice side.orders price texts.emptyPrices
    some (side, .info info.value, info.entries)

/-- Where a call stands, with its arguments and local variables. An iterator
is the identifier of its order; that of a price range is a position in it. -/
inductive SidePoint
  | new (order : Order)
  | newWaiting (order : Order)
  | newLocked (order : Order)
  | newInserted (order : Order)
  | newCounted (order : Order)
  | newPresent (order : Order)
  | cancel (orderId : ID)
  | cancelLocked (orderId : ID)
  | cancelFound (orderId : ID)
  | cancelCounted (orderId : ID)
  | cancelErased (orderId : ID)
  | cancelAbsent (orderId : ID)
  | replace (oldOrder newOrder : Order)
  | replaceWaiting (oldOrder newOrder : Order)
  | replaceLocked (oldOrder newOrder : Order)
  | replaceFound (it : ID) (newOrder : Order)
  | replaceDebited (it : ID) (newOrder : Order)
  | replaceCredited (it : ID) (newOrder : Order)
  | replaceModified (newOrder : Order)
  | replaceAbsent (oldOrder : Order)
  | best
  | bestLocked
  | bestEmpty
  | bestPresent
  | prices (price : Price)
  | pricesLocked (price : Price)
  | pricesEmpty (price : Price)
  | pricesScan (price : Price) (position : Nat) (info : PricesInfo)
  | unlocking (answer : SideAnswer)
  | unlockingShared (answer : SideAnswer)
  | ended (answer : SideAnswer)

namespace SidePoint

def holds : SidePoint → Hold
  | new _ | newWaiting _ | cancel _ | replace _ _ | replaceWaiting _ _ | best | prices _ | ended _ => .nothing
  | bestLocked | bestEmpty | bestPresent | pricesLocked _ | pricesEmpty _ | pricesScan _ _ _ => .shared
  | unlockingShared _ => .shared
  | _ => .exclusive

def answer : SidePoint → Option SideAnswer
  | ended answer => some answer
  | _ => none

def start : SideCall → SidePoint
  | .change (.new order) => new order
  | .change (.cancel orderId) => cancel orderId
  | .change (.replace oldOrder newOrder) => replace oldOrder newOrder
  | .best => best
  | .pricesInfo price => prices price

variable {comparator : Order → Order → Bool}

/-- The next step of a call: at most one access to the container, one to the
counter, or one line of the log. A step that goes through an iterator looks
its order up: there is none where the order is gone and the iterator dangles. -/
def act (texts : SideTexts) (point : SidePoint) (side : BookSide comparator) :
    Option (BookSide comparator × SidePoint × List LogEntry) :=
  let ⟨camel, upper⟩ := texts.toSideNames
  match point with
  | new order =>
    let checked := validate order s!"New{camel}"
    some (side, if checked.value then newWaiting order else ended .nothing, checked.entries)
  | newWaiting order => some (side, newLocked order, [])
  | newLocked order =>
    let result := side.orders.insert order
    some ({ side with orders := result.1 }, if result.2 then newInserted order else newPresent order, [])
  | newInserted order => some ({ side with total := side.total + order.quantity }, newCounted order, [])
  | newCounted order => some (side, unlocking .nothing, [⟨.info, s!"New {upper} added, id = {order.id}"⟩])
  | newPresent order =>
    some (side, unlocking .nothing, [⟨.error, s!"New{camel}: {upper} id = {order.id} already exists"⟩])
  | cancel orderId => some (side, cancelLocked orderId, [])
  | cancelLocked orderId =>
    some (side, if (side.orders.find orderId).isSome then cancelFound orderId else cancelAbsent orderId, [])
  | cancelFound it => (side.orders.find it).map fun resting =>
    ({ side with total := side.total - resting.quantity }, cancelCounted it, [])
  | cancelCounted it => (side.orders.find it).map fun _ =>
    ({ side with orders := side.orders.erase it }, cancelErased it, [])
  | cancelErased orderId => some (side, unlocking .nothing, [⟨.info, s!"{camel} canceled, id = {orderId}"⟩])
  | cancelAbsent orderId =>
    some (side, unlocking .nothing, [⟨.error, s!"Cancel{camel}: Invalid id = {orderId}"⟩])
  | replace oldOrder newOrder =>
    if newOrder.price == 0 || newOrder.quantity == 0 then
      some (side, ended .nothing, [⟨.error, s!"Replace{camel}: Invalid order, id = {newOrder.id}"⟩])
    else if oldOrder.id != newOrder.id then
      some (side, ended .nothing,
        [⟨.error, s!"Replace{camel}: Order id cannot be changed (old id = {oldOrder.id}, new id = {newOrder.id})"⟩])
    else some (side, replaceWaiting oldOrder newOrder, [])
  | replaceWaiting oldOrder newOrder => some (side, replaceLocked oldOrder newOrder, [])
  | replaceLocked oldOrder newOrder =>
    some (side, if (side.orders.find oldOrder.id).isSome then replaceFound oldOrder.id newOrder
      else replaceAbsent oldOrder, [])
  | replaceFound it newOrder => (side.orders.find it).map fun resting =>
    ({ side with total := side.total - resting.quantity }, replaceDebited it newOrder, [])
  | replaceDebited it newOrder =>
    some ({ side with total := side.total + newOrder.quantity }, replaceCredited it newOrder, [])
  | replaceCredited it newOrder => (side.orders.find it).map fun _ =>
    ({ side with orders := side.orders.modify it newOrder.assignTerms }, replaceModified newOrder, [])
  | replaceModified newOrder => some (side, unlocking .nothing, [⟨.info, s!"Replaced {upper} id = {newOrder.id}"⟩])
  | replaceAbsent oldOrder =>
    some (side, unlocking .nothing, [⟨.error, s!"Replace{camel}:, id {oldOrder.id} not found"⟩])
  | best => some (side, bestLocked, [])
  | bestLocked => some (side, if side.orders.ordered.isEmpty then bestEmpty else bestPresent, [])
  | bestEmpty => some (side, unlockingShared (.order (Order.ofInt 0 0 0)), [⟨.warning, texts.emptyBest⟩])
  | bestPresent => side.orders.ordered.head?.map fun first => (side, unlockingShared (.order first), [])
  | prices price => some (side, pricesLocked price, [])
  | pricesLocked price =>
    some (side, if side.orders.ordered.isEmpty then pricesEmpty price else pricesScan price 0 {}, [])
  | pricesEmpty _ => some (side, unlockingShared (.info {}), [⟨.warning, texts.emptyPrices⟩])
  | pricesScan price position info =>
    let range := equalRange (fun o => o.price < price) (fun o => price < o.price) side.orders.secondary
    match range[position]? with
    | some o =>
      let next : PricesInfo := { ids := info.ids ++ [o.id], quantity := info.quantity + o.quantity }
      some (side, pricesScan price (position + 1) next, [])
    | none => some (side, unlockingShared (.info info), [])
  | unlocking answer => some (side, ended answer, [])
  | unlockingShared answer => some (side, ended answer, [])
  | ended _ => none

end SidePoint

/-- The code of the calls on one side. -/
def sideCode (comparator : Order → Order → Bool) (texts : SideTexts) :
    Code (BookSide comparator) SideCall SidePoint SideAnswer LogEntry where
  start := SidePoint.start
  holds := SidePoint.holds
  act := SidePoint.act texts
  answer := SidePoint.answer

end Stakan
